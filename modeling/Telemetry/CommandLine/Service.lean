import Telemetry.Config.Service
import Telemetry.Reduction.Remote
import Telemetry.Server.Basic

/-!
# The provider service

The service hosts one provider, and if it is told so a counter of its own uptime. `Service.launch`
says what it is made from and, if it cannot start, how it exits. Reduction cycles leave what is to
be written in the sinks of the provider; `Service.dispatch` passes it on to the aggregators and the
reducer.
-/
namespace Telemetry

/-- A service that is ready to serve. -/
structure Service where
  config : ServiceConfig
  server : Server
  /-- The place of the provider on the server. -/
  place : Nat
  aggregators : Array RemoteSink
  reducer : Option RemoteReducer
  /-- The counter of the uptime, if there is one. -/
  uptime : Option MetricId

namespace Service

/-- The tags of the counter of the uptime. -/
def uptimeTags : TagList := ⟨["self"], by decide⟩

/-- The counter of the seconds since the service started. -/
def uptimeSpec : MetricSpec :=
  { ns := "tagmon"
    name := "uptime_seconds"
    kind := .counter
    tags := uptimeTags
    description := "seconds since the provider started"
    operator := .null
    backend := none }

/-- How the provider of a configuration is set up, with a sink for each aggregator. -/
def setup (config : ServiceConfig) (plan : AggregationPlan) : ProviderSetup :=
  { token := config.token
    settings := config.settings
    finalizeOnShutdown := config.finalizeOnShutdown
    engine :=
      { sinks := Array.replicate plan.aggregators.length {}
        reducer := plan.reducer.map fun _ => {} } }

/-- The provider with the counter of the uptime, if the configuration asks for it. -/
def withUptime (config : ServiceConfig) (p : Provider) :
    Except Failure (Option MetricId × Provider) :=
  if config.uptimeMetric then
    match p.create uptimeSpec with
    | (.error failure, _) => .error failure
    | (.ok m, p) => .ok (some m.id, p)
  else .ok (none, p)

/-- Starts the service of a configuration. -/
def start (config : ServiceConfig) (plan : AggregationPlan) : Except Failure Service := do
  let (place, server) ← ({} : Server).register config.provider (setup config plan)
  match server.providers[place]? with
  | none => .error (.invalidProvider "no such provider")
  | some p =>
    let (uptime, p) ← withUptime config p
    return {
      config := config
      server := server.modifyProvider place fun _ => p
      place := place
      aggregators := (plan.aggregators.map fun a =>
        RemoteSink.ofAddress a.address a.dbName).toArray
      reducer := plan.reducer.map fun r => RemoteReducer.ofAddress r.address r.provider
      uptime := uptime }

/-- Starts the service that an environment describes, given why the address to listen on cannot be
used, if so; or says how the program exits, and why. -/
def launch (env : String → Option String) (files : Files) (bindFault? : String → Option String) :
    Except (Nat × Failure) Service := do
  let config ← (ServiceConfig.load env files).mapError fun failure => (2, failure)
  let plan ← (AggregationPlan.load config files).mapError fun failure => (1, failure)
  match bindFault? config.listenAddress with
  | some fault => .error (1, .transport ("bind " ++ config.listenAddress ++ ": " ++ fault))
  | none => (start config plan).mapError fun failure => (1, failure)

/-- The provider of the service. -/
def provider? (s : Service) : Option Provider := s.server.providers[s.place]?

/-- Changes the provider of the service. -/
def modify (s : Service) (f : Provider → Provider) : Service :=
  { s with server := s.server.modifyProvider s.place f }

/-- Counts the seconds since the start. -/
def countUptime (s : Service) (seconds time : Double) (writer : UInt64) : Service :=
  match s.uptime with
  | none => s
  | some id => s.modify fun p =>
    match p.update? id seconds time writer with
    | some (.ok p) => p
    | _ => p

/-- Passes what a sink holds on to its aggregator. -/
def dispatchSink (net : Network) (batched : Bool) (remote : RemoteSink) (s : Sink) (w : Wire) :
    RemoteSink × Wire :=
  let entries := s.entries
  if batched then
    match remote.multiErase net (entries.map Prod.fst) w with
    | (some (.ok ()), remote, w) => (remote.multiPut net entries w).2
    | (_, remote, w) => (remote, w)
  else entries.foldl (fun (remote, w) (key, value) =>
    match remote.erase net key w with
    | (some (.ok ()), remote, w) => (remote.put net key value w).2
    | (_, remote, w) => (remote, w)) (remote, w)

/-- Passes requests on to the reducer. -/
def dispatchRequests (net : Network) (remote : RemoteReducer) (requests : List ReduceRequest)
    (w : Wire) : RemoteReducer × Wire :=
  requests.foldl (fun (remote, w) request => (remote.reduce net request w).2) (remote, w)

/-- Passes on what the cycles so far left in the sinks and with the reducer. What cannot be
delivered is lost; the next cycle makes it anew. -/
def dispatch (net : Network) (s : Service) (w : Wire) : Service × Wire :=
  match s.provider? with
  | none => (s, w)
  | some p =>
    let (aggregators, w) := (s.aggregators.zip p.engine.sinks).foldl
      (fun (done, w) (remote, sink) =>
        let (remote, w) := dispatchSink net p.settings.batched remote sink w
        (done.push remote, w)) (#[], w)
    match s.reducer, p.engine.reducer with
    | some remote, some reducer =>
      let (remote, w) := dispatchRequests net remote reducer.requests w
      ({ s with aggregators := aggregators, reducer := some remote }, w)
    | _, _ => ({ s with aggregators := aggregators }, w)

/-- The service with nothing left to be passed on. -/
def emptied (s : Service) : Service := s.modify fun p =>
  { p with engine :=
    { sinks := Array.replicate p.engine.sinks.size {}
      reducer := p.engine.reducer.map fun _ => {} } }

end Service

end Telemetry
