import Telemetry.Client.Basic
import Telemetry.Protocol.Request

/-!
# Calls to a server

A client lists the metrics of a provider, or fetches the newest samples of one through a handle. It
believes nothing it is told: a reply has to be of the kind that was asked for and may not announce
more samples than were asked for or pushed.
-/
namespace Telemetry

open Resp (Value)

/-- What a fetch returns. -/
structure Fetched where
  samples : List Sample
  /-- The number of samples that the server announced. -/
  actualCount : Nat
  name : String
  ns : String
deriving DecidableEq, Repr

/-- The failure that a status stands for, if it is not success. -/
def Status.check (context : String) (s : Status) : Except Failure Unit :=
  match s.toFailure? context with
  | some failure => .error failure
  | none => .ok ()

namespace Client

/-- The failure in a rejection. -/
def rejection (context : String) (status : Status) (message : String) : Failure :=
  (status.toFailure? context).getD (.transport message)

/-- The identities in the reply to a listing. -/
def readListing : Frame → Except Failure (List MetricId)
  | .list status ids => (status.check "list").map fun _ => ids
  | .rejected status message => .error (rejection "list" status message)
  | frame => .error (.transport ("unexpected reply to LIST: " ++ frame.quoted))

/-- The samples in a region, given the number that the reply to a fetch announces and the number
that was asked for. -/
def readSamples (count : Nat) (region : Region) (announced : Int64) :
    Except Failure (List Sample) :=
  if announced < 0 then
    .error (.transport ("negative sample count " ++ toString announced.toInt))
  else
    let actual := announced.toInt.toNat
    if count < actual then
      .error (.transport ("server returned " ++ toString actual ++ " samples for a request of "
        ++ toString count))
    else region.samples actual

/-- What the reply to a fetch yields. -/
def readFetched (count : Nat) (region : Region) : Frame → Except Failure Fetched
  | .fetch status announced name ns =>
    match status.check "fetch" with
    | .error failure => .error failure
    | .ok () => (readSamples count region announced).map fun samples =>
      { samples := samples, actualCount := announced.toInt.toNat, name := name, ns := ns }
  | .rejected status message => .error (rejection "fetch" status message)
  | frame => .error (.transport ("unexpected reply to FETCH: " ++ frame.quoted))

/-- Exchanges a request and a reply through one of the client's endpoints. -/
def exchange (net : Network) (c : Client) (endpoint : Nat) (request : Request)
    (region? : Option Region) (w : Wire) : Except Failure Reply × Client × Wire :=
  match c.endpoints[endpoint]? with
  | none => (.error noHandle, c, w)
  | some e =>
    let (r, e, w) := e.exchange net request.toValue region? w
    (r, { c with endpoints := c.endpoints.setIfInBounds endpoint e }, w)

/-- The identities of at most `max` metrics of a provider. -/
def list (net : Network) (c : Client) (address : String) (provider : UInt16) (max : UInt64)
    (w : Wire) : Except Failure (List MetricId) × Client × Wire :=
  let (n, c) := c.endpointFor address
  let (r, c, w) := c.exchange net n (.list provider max c.token) none w
  (r.bind fun reply => readListing reply.frame, c, w)

/-- The number of samples to ask for: what is wanted, but neither less than none nor more than the
bound. A bound that is no signed number of sixty-four bits leaves nothing to choose from. -/
def clampCount (bound : Nat) (wanted : Int64) : Option Nat :=
  if bound < 0x8000000000000000 then some (min wanted.toInt.toNat bound) else none

/-- Fetches at most `count` samples of the metric of a handle that holds the given endpoint. The
region is set aside before anything is sent. -/
def fetchThrough (net : Network) (c : Client) (h : Handle) (endpoint count : Nat) (w : Wire) :
    Except Failure Fetched × Client × Wire :=
  let (id, numbered) := w.nextRegion
  match Region.ofCount id count with
  | .error failure => (.error failure, c, w)
  | .ok region =>
    let request := Request.fetch h.provider h.metric (Int64.ofNat count) region.descriptor c.token
    let (r, c, w) := c.exchange net endpoint request (some region) numbered
    (r.bind fun reply => readFetched count (reply.region?.getD region) reply.frame, c, w)

/-- Fetches the newest samples through a handle. There is no result if the client's bound on fetches
leaves no count to ask for. -/
def fetch (net : Network) (c : Client) (i : Nat) (wanted : Int64) (w : Wire) :
    Option (Except Failure Fetched) × Client × Wire :=
  match c.handles[i]? with
  | none => (some (.error noHandle), c, w)
  | some h =>
    match h.endpoint? with
    | none => (some (.error (closedHandle h)), c, w)
    | some endpoint =>
      match clampCount c.maxFetchCount wanted with
      | none => (none, c, w)
      | some count =>
        let (r, c, w) := c.fetchThrough net h endpoint count w
        (some r, c, w)

end Client

end Telemetry
