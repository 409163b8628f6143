import Telemetry.Protocol.Frame
import Telemetry.Protocol.Request
import Telemetry.Provider.Basic

/-!
# Answering requests

Every request is answered with exactly one reply: a listing, the outcome of a fetch, or a rejection
if it could not be read. A fetch that finds samples pushes them in one frame before its reply. A
provider with a token says nothing but that to those who do not show it.
-/
namespace Telemetry

namespace Provider

/-- The identities of at most `maxIds` metrics. -/
def answerList (p : Provider) (maxIds : UInt64) (token : Option String) : Frame :=
  match p.authorize token with
  | .error failure => .list failure.status []
  | .ok () => .list .success (p.list maxIds.toNat)

/-- The number of samples that a fetch asks for, bounded by the settings and by its region. -/
def wanted (p : Provider) (count : Nat) (region : RegionDescriptor) : Nat :=
  min (min count p.settings.maxFetchCount) region.sampleCapacity

/-- The newest samples of a metric: a push, if there are any, and the reply. -/
def deliver (p : Provider) (m : Metric) (count : Nat) (region : RegionDescriptor) : List Frame :=
  let (payload, actual) := m.buffer.packTail (p.wanted count region) []
  let reply := Frame.fetch .success (Int64.ofNat actual) m.name m.ns
  if actual = 0 then [reply] else [.bulk ⟨region.id, payload⟩, reply]

/-- The frames for a fetch. The token is looked at first, then the count, then the metric. -/
def answerFetch (p : Provider) (id : MetricId) (count : Int64) (region : RegionDescriptor)
    (token : Option String) : List Frame :=
  match p.authorize token with
  | .error failure => [.fetchFailed failure.status]
  | .ok () =>
    if count < 0 then [.fetchFailed .invalidArgs]
    else match p.find? id with
      | none => [.fetchFailed .invalidMetric]
      | some m => p.deliver m count.toInt.toNat region

end Provider

/-- The reply to a request for a provider that is not there. -/
def Request.unknownProvider : Request → Frame
  | list _ _ _ => .list .invalidProvider []
  | fetch _ _ _ _ _ => .fetchFailed .invalidProvider

/-- The frames for a request to one of the providers that `lookup` knows. -/
def Request.answer (lookup : UInt16 → Option Provider) (r : Request) : List Frame :=
  match lookup r.provider, r with
  | none, _ => [r.unknownProvider]
  | some p, list _ maxIds token => [p.answerList maxIds token]
  | some p, fetch _ id count region token => p.answerFetch id count region token

/-- The frames for whatever a client sent. -/
def answerValue (lookup : UInt16 → Option Provider) (v : Resp.Value) : List Frame :=
  match Request.ofValue v with
  | .ok r => r.answer lookup
  | .error failure => [.rejected failure.status failure.message]

end Telemetry
