import Telemetry.Config.Settings
import Telemetry.Metric.Registry
import Telemetry.Provider.Backend
import Telemetry.Reduction.Engine

/-!
# Providers

A provider owns a registry of metrics, the backends that store them, and the sinks and the reducer
that it writes to. `Provider.start` makes one from its settings. What happened between the provider
and its backends is kept in its ledger, so that it can be said which contexts are still out.
-/
namespace Telemetry

/-- What a provider is started with. -/
structure ProviderSetup where
  /-- What every request has to show. -/
  token : Option String := none
  /-- The settings as a JSON text. -/
  settings : Option String := none
  /-- Whether the provider is finalized when its server shuts down. -/
  finalizeOnShutdown : Bool := false
  engine : ReductionEngine := {}
  /-- Whether something can run work in the background. -/
  background : Bool := true

/-- A running or finalized provider. -/
structure Provider where
  id : UInt16
  /-- What every request has to show; never the empty text. -/
  token : Option String
  finalizeOnShutdown : Bool
  settings : Settings
  registry : Registry
  backends : BackendRegistry
  engine : ReductionEngine
  /-- What happened between the provider and its backends, newest first. -/
  ledger : List Handover := []
  /-- The ticket of the next context. -/
  nextTicket : Nat := 0
  /-- Milliseconds since the start. -/
  clock : Nat := 0
  /-- Milliseconds between two reduction cycles in the background, as long as there are any. -/
  interval? : Option Nat
  finalized : Bool := false

namespace Provider

/-- Starts a provider. Cycles in the background need something that can run them. -/
def start (id : UInt16) (setup : ProviderSetup) : Except Failure Provider := do
  let settings ← Settings.ofText? setup.settings
  if settings.intervalMs?.isSome && !setup.background then
    .error (.invalidConfig "periodic reduction needs a tokio runtime")
  else return {
    id := id
    token := setup.token.filter fun t => t ≠ ""
    finalizeOnShutdown := setup.finalizeOnShutdown
    settings := settings
    registry := .empty settings.bufferCapacity
    backends := ⟨[.dummy]⟩
    engine := setup.engine
    interval? := settings.intervalMs? }

/-- Refuses a request that does not show the provider's token. -/
def authorize (p : Provider) (token : Option String) : Except Failure Unit :=
  if p.token.isNone || token = p.token then .ok () else .error .invalidToken

/-- Adds a backend. -/
def registerBackend (p : Provider) (b : Backend) : Except Failure Provider :=
  (p.backends.register b).map fun backends => { p with backends := backends }

/-- The provider with one more entry in its ledger. -/
def record (p : Provider) (h : Handover) : Provider := { p with ledger := h :: p.ledger }

/-- The contexts made so far, newest first. -/
def made (p : Provider) : List BackendContext := p.ledger.filterMap Handover.made?

/-- The contexts handed back so far, newest first. -/
def released (p : Provider) : List BackendContext := p.ledger.filterMap Handover.released?

/-- The metric of an identity. -/
def find? (p : Provider) (id : MetricId) : Option Metric := p.registry.find? id

/-- The metric of given names; the order of the tags does not matter. -/
def findByName? (p : Provider) (ns name : String) (tags : List String) : Option Metric :=
  p.registry.findByName? ns name tags

/-- The identities of at most `max` metrics. -/
def list (p : Provider) (max : Nat) : List MetricId := p.registry.list max

/-- Records a value, if the metric is there. -/
def update? (p : Provider) (id : MetricId) (value time : Double) (writer : UInt64) :
    Option (Except Failure Provider) :=
  (p.registry.modify? id fun m => m.update value time writer).map fun r =>
    r.map fun registry => { p with registry := registry }

/-- Changes the last value of a gauge, if the metric is there. -/
def updateDelta? (p : Provider) (id : MetricId) (delta time : Double) (writer : UInt64) :
    Option (Except Failure Provider) :=
  (p.registry.modify? id fun m => m.updateDelta delta time writer).map fun r =>
    r.map fun registry => { p with registry := registry }

end Provider

end Telemetry
