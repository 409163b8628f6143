import Telemetry.Interleaving
import Telemetry.Provider.Lifecycle

/-!
# Calls in progress on a provider

Metrics are created and removed by calls that may run side by side. Here every call is taken apart
into its atomic steps, which are the steps of `Provider.create`, `Provider.withdraw` and
`Provider.removeAll`: between any two of them other calls may have theirs. A call that was admitted
because its identity was free may find it taken when its context is made, and then hands the context
back.
-/
namespace Telemetry

/-- How a call on a provider ended. -/
inductive LifecycleResult where
  | created (m : Metric)
  | removed
  /-- The number of metrics that were removed. -/
  | removedAll (count : Nat)
  | failed (failure : Failure)

/-- A call on a provider and how far it is. -/
inductive LifecycleCall where
  /-- A creation that has not begun. -/
  | create (spec : MetricSpec)
  /-- A creation whose identity was free. -/
  | attach (spec : MetricSpec) (m : Metric)
  /-- A creation that has its context. -/
  | insert (spec : MetricSpec) (m : Metric)
  /-- A creation that lost its place and holds a context. -/
  | withdraw (spec : MetricSpec) (m : Metric) (failure : Failure)
  /-- A removal that has not begun. -/
  | remove (how : Release) (id : MetricId)
  /-- A removal that took its metric out. -/
  | handBack (how : Release) (m : Metric)
  /-- A removal of every metric that has shards before it and metrics behind it. -/
  | drain (shards : List (Fin shardCount)) (taken : List Metric)
  /-- A removal of every metric that took all of them out. -/
  | handBackAll (left : List Metric) (count : Nat)
  | finished (result : LifecycleResult)

namespace LifecycleCall

/-- A removal of every metric that has not begun. -/
def removeAll : LifecycleCall := drain (List.finRange shardCount) []

/-- Whether a call has ended. -/
def isFinished : LifecycleCall → Bool
  | finished _ => true
  | _ => false

/-- The context that a call holds and no registered metric does. -/
def held : LifecycleCall → List BackendContext
  | insert _ m | withdraw _ m _ | handBack _ m => m.context.toList
  | drain _ taken => taken.filterMap Metric.context
  | handBackAll left _ => left.filterMap Metric.context
  | _ => []

/-- The next atomic step of a call. -/
def step (p : Provider) : LifecycleCall → Provider × LifecycleCall
  | create spec =>
    match p.describe spec with
    | .error failure => (p, finished (.failed failure))
    | .ok m => (p, attach spec m)
  | attach spec m =>
    match p.attach spec m with
    | (.error failure, p) => (p, finished (.failed failure))
    | (.ok m, p) => (p, insert spec m)
  | insert spec m =>
    match p.insert m with
    | .ok p => (p, finished (.created m))
    | .error failure => (p, withdraw spec m failure)
  | withdraw spec m failure => (p.release spec.withdrawal m, finished (.failed failure))
  | remove how id =>
    match p.take id with
    | .error failure => (p, finished (.failed failure))
    | .ok (m, p) => (p, handBack how m)
  | handBack how m => (p.release how m, finished .removed)
  | drain [] taken => (p, handBackAll taken taken.length)
  | drain (i :: shards) taken =>
    let (more, registry) := p.registry.drainShard i
    ({ p with registry := registry }, drain shards (taken ++ more))
  | handBackAll [] count => (p, finished (.removedAll count))
  | handBackAll (m :: left) count => (p.release .close m, handBackAll left count)
  | finished result => (p, finished result)

end LifecycleCall

/-- A provider and the calls in progress on it, after a schedule. -/
def Provider.interleave (p : Provider) (calls : List LifecycleCall) (schedule : List Nat) :
    Interleaving Provider LifecycleCall :=
  Interleaving.run LifecycleCall.step ⟨p, calls⟩ schedule

end Telemetry
