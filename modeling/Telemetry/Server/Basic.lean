import Telemetry.Network.Wire
import Telemetry.Provider.Lifecycle
import Telemetry.Server.Session

/-!
# Servers

A server routes requests to providers by their ids. A provider that is taken off the table goes on
existing, and can be put back. Shutting down empties the table and finalizes the providers that
asked for it; connections that are open stay open, but no new ones are made.

## Main definitions

* `Server`: the providers and the table.
* `Server.network`: the server as the other side of connections to its address.
-/
namespace Telemetry

/-- A server and the providers that were made for it. -/
structure Server where
  /-- Every provider, on the table or not. -/
  providers : Array Provider := #[]
  /-- The table: ids with the places of their providers. Every id occurs once. -/
  routes : List (UInt16 × Nat) := []
  /-- Whether new connections are made. -/
  accepting : Bool := true

namespace Server

/-- Whether requests for an id are routed. -/
def hasProvider (s : Server) (id : UInt16) : Bool := (s.routes.lookup id).isSome

/-- The provider to which requests for an id are routed. -/
def provider? (s : Server) (id : UInt16) : Option Provider :=
  (s.routes.lookup id).bind fun place => s.providers[place]?

/-- The failure of a second provider with an id. -/
def taken (id : UInt16) : Failure :=
  .invalidProvider ("provider id " ++ toString id.toNat ++ " already registered")

/-- Starts a provider and routes its id to it. That the id is taken is noticed before anything else.
-/
def register (s : Server) (id : UInt16) (setup : ProviderSetup) : Except Failure (Nat × Server) :=
  if s.hasProvider id then .error (taken id)
  else (Provider.start id setup).map fun p =>
    (s.providers.size,
      { s with providers := s.providers.push p, routes := (id, s.providers.size) :: s.routes })

/-- Routes the id of a provider to it again. -/
def attach (s : Server) (place : Nat) : Except Failure Server :=
  match s.providers[place]? with
  | none => .error (.invalidProvider "no such provider")
  | some p =>
    if s.hasProvider p.id then .error (taken p.id)
    else .ok { s with routes := (p.id, place) :: s.routes }

/-- Stops routing an id. The provider is not finalized. -/
def deregister (s : Server) (id : UInt16) : Except Failure Server :=
  if s.hasProvider id then .ok { s with routes := s.routes.filter fun r => r.1 ≠ id }
  else .error (.invalidProvider ("provider id " ++ toString id.toNat ++ " not registered"))

/-- The ids that are routed, in ascending order. -/
def providerIds (s : Server) : List UInt16 :=
  (s.routes.map Prod.fst).mergeSort fun a b => a ≤ b

/-- Changes a provider. -/
def modifyProvider (s : Server) (place : Nat) (f : Provider → Provider) : Server :=
  { s with providers := s.providers.modify place f }

/-- Creates metrics of a provider and records their samples, up to the first that is refused. -/
def fill (s : Server) (place : Nat) (metrics : List (MetricSpec × List Sample)) :
    Except Failure Server :=
  metrics.foldlM (fun (s : Server) (spec, samples) =>
    match s.providers[place]? with
    | none => .ok s
    | some p =>
      let (r, p) := p.createFilled spec samples
      r.map fun _ => s.modifyProvider place fun _ => p) s

/-- Stops accepting connections, empties the table and finalizes the providers on it that asked for
that. -/
def shutdown (s : Server) : Server :=
  { accepting := false
    routes := []
    providers := s.routes.foldl (fun providers (_, place) =>
      providers.modify place fun p => if p.finalizeOnShutdown then p.finalize else p) s.providers }

/-- What the server answers to the last of several chunks on one connection. -/
def reply (s : Server) (chunks : List Bytes) : Delivery :=
  match chunks.getLast? with
  | none => {}
  | some chunk =>
    let (frames, session) := (Session.after s.provider? chunks.dropLast).feed s.provider? chunk
    { bytes := encodeFrames frames, ending := if session.ended then .closed else .silent }

/-- The network on which the server is reached at an address, and nothing else is. -/
def network (s : Server) (address : String) : Network :=
  { refusal? := fun _ a =>
      if s.accepting && a = address then none else some "Connection refused (os error 111)"
    deliver := fun events connection => s.reply (sentOn connection events) }

end Server

end Telemetry
