import Telemetry.Client.Endpoint
import Telemetry.Metric.Identity
import Telemetry.Metric.Sample

/-!
# Clients and handles

A client opens handles to metrics of remote providers. Handles to the same address share an endpoint
as long as one of them is in use. A handle counts its references: the last release closes it, and a
closed handle stays closed.

The client remembers the endpoint of an address without keeping it: an endpoint lives as long as
some handle holds it, and what is remembered about endpoints that are gone is forgotten when the
next one is made.
-/
namespace Telemetry

/-- A client's reference to a metric of a remote provider. -/
structure Handle where
  address : String
  provider : UInt16
  metric : MetricId
  /-- The references to the handle. -/
  refs : Nat := 1
  /-- The place of the endpoint among those of the client, until the handle is closed. -/
  endpoint? : Option Nat

/-- How a handle is shown. -/
def Handle.quoted (h : Handle) : String :=
  "RemoteMetricHandle \x7b address: " ++ Text.quoted h.address ++ ", provider_id: "
    ++ toString h.provider.toNat ++ ", metric_id: MetricId(" ++ toString h.metric.toNat
    ++ "), refcount: " ++ toString h.refs ++ " \x7d"

/-- A client with the handles it opened and the endpoints it made. -/
structure Client where
  /-- What is shown with every request. -/
  token : Option String := none
  /-- The most samples that one fetch asks for. -/
  maxFetchCount : Nat := 160000
  timeoutMs : Nat := 10000
  handles : Array Handle := #[]
  endpoints : Array Endpoint := #[]
  /-- The remembered addresses with the places of their endpoints. -/
  known : List (String × Nat) := []
  /-- The number of handles that are not closed. -/
  openHandles : Nat := 0

namespace Client

/-- Whether some handle holds an endpoint. -/
def holds (c : Client) (endpoint : Nat) : Bool := c.handles.any fun h => h.endpoint? = some endpoint

/-- Makes an endpoint for an address and forgets those that are gone. -/
def newEndpoint (c : Client) (address : String) : Nat × Client :=
  let n := c.endpoints.size
  let kept := c.known.filter fun (a, e) => a ≠ address && c.holds e
  (n, { c with
    endpoints := c.endpoints.push { address := address, timeoutMs := c.timeoutMs }
    known := (address, n) :: kept })

/-- The endpoint for an address: the one that is remembered, if it still lives, or a new one. -/
def endpointFor (c : Client) (address : String) : Nat × Client :=
  match c.known.lookup address with
  | some n => if c.holds n then (n, c) else c.newEndpoint address
  | none => c.newEndpoint address

/-- Opens a handle to a metric, with one reference. Nothing is sent. -/
def openHandle (c : Client) (address : String) (provider : UInt16) (metric : MetricId) :
    Except Failure (Nat × Client) :=
  if address = "" then .error (.invalidArgs "empty server address")
  else
    let (n, c) := c.endpointFor address
    .ok (c.handles.size, { c with
      handles := c.handles.push
        { address := address, provider := provider, metric := metric, endpoint? := some n }
      openHandles := c.openHandles + 1 })

/-- The failure of a call on a handle that is closed. -/
def closedHandle (h : Handle) : Failure :=
  .invalidArgs ("handle for " ++ h.metric.hex ++ " already released")

/-- The failure of a call on a handle that was never opened. -/
def noHandle : Failure := .invalidArgs "no such handle"

/-- Changes a handle. -/
def setHandle (c : Client) (i : Nat) (h : Handle) : Client :=
  { c with handles := c.handles.setIfInBounds i h }

/-- Takes another reference to a handle that is not closed. -/
def addRef (c : Client) (i : Nat) : Except Failure Client :=
  match c.handles[i]? with
  | none => .error noHandle
  | some h =>
    if h.refs = 0 then .error (closedHandle h)
    else .ok (c.setHandle i { h with refs := h.refs + 1 })

/-- Drops a reference to a handle, and tells whether it was the last one. -/
def dropRef (c : Client) (i : Nat) : Except Failure (Bool × Client) :=
  match c.handles[i]? with
  | none => .error noHandle
  | some h =>
    match h.refs with
    | 0 => .error (.invalidArgs ("handle for " ++ h.metric.hex ++ " released too often"))
    | n + 1 => .ok (n = 0, c.setHandle i { h with refs := n })

/-- Lets go of the endpoint of a handle. -/
def dropEndpoint (c : Client) (i : Nat) : Client :=
  match c.handles[i]? with
  | none => c
  | some h => c.setHandle i { h with endpoint? := none }

/-- Counts one handle less. -/
def countClosed (c : Client) : Client := { c with openHandles := c.openHandles - 1 }

/-- Releases a reference to a handle; the last release closes it. -/
def release (c : Client) (i : Nat) : Except Failure Client :=
  (c.dropRef i).map fun (last, c) => if last then (c.dropEndpoint i).countClosed else c

/-- Forgets every address and tells how many handles are open. They stay in use. -/
def finalize (c : Client) : Nat × Client := (c.openHandles, { c with known := [] })

end Client

end Telemetry
