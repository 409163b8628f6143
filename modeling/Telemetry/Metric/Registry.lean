import Telemetry.Metric.Basic

/-!
# Registries

A registry holds metrics by identity in sixteen shards: a metric is in the shard of its identity
modulo sixteen, and a counter holds the number of all metrics. Together the shards are one finite
map from identities to metrics, whose entries `Registry.entries` lists shard by shard.
-/
namespace Telemetry

/-- The number of shards. -/
def shardCount : Nat := 16

/-- Metrics by identity. -/
structure Registry where
  shards : Vector (List (MetricId × Metric)) shardCount
  /-- The number of metrics in all shards. -/
  count : Nat
  /-- The room for samples in metrics created here. -/
  capacity : Nat

namespace Registry

/-- A registry without metrics. -/
def empty (capacity : Nat) : Registry := ⟨Vector.replicate shardCount [], 0, capacity⟩

/-- The shard of an identity. -/
def shardOf (id : MetricId) : Fin shardCount :=
  ⟨id.toNat % shardCount, Nat.mod_lt _ (by decide)⟩

/-- What is in one shard. -/
def content (r : Registry) (i : Fin shardCount) : List (MetricId × Metric) := r.shards[i]

/-- What is in the shard of an identity. -/
def shard (r : Registry) (id : MetricId) : List (MetricId × Metric) := r.content (shardOf id)

/-- The registry with another content for the shard of an identity. -/
def setShard (r : Registry) (id : MetricId) (entries : List (MetricId × Metric)) (count : Nat) :
    Registry :=
  { r with shards := r.shards.set (shardOf id) entries (shardOf id).isLt, count := count }

/-- The metric of an identity. -/
def find? (r : Registry) (id : MetricId) : Option Metric := (r.shard id).lookup id

/-- Whether there is a metric of an identity. -/
def contains (r : Registry) (id : MetricId) : Bool := (r.shard id).any fun e => e.1 = id

/-- The metric of given names; the order of the tags does not matter. -/
def findByName? (r : Registry) (ns name : String) (tags : List String) : Option Metric :=
  r.find? (MetricId.ofNames ns name tags)

/-- The failure to add a metric of an identity that is taken. -/
def taken (m : Metric) : Failure := .metricExists (m.stringified ++ " (" ++ m.id.hex ++ ")")

/-- Adds a metric, unless there is one of its identity. -/
def insert (r : Registry) (m : Metric) : Except Failure Registry :=
  if r.contains m.id then .error (taken m)
  else .ok (r.setShard m.id (r.shard m.id ++ [(m.id, m)]) (r.count + 1))

/-- Makes a metric and adds it. -/
def create (r : Registry) (spec : MetricSpec) : Except Failure (Metric × Registry) := do
  let m ← Metric.ofSpec spec r.capacity
  return (m, ← r.insert m)

/-- Takes a metric out. -/
def remove (r : Registry) (id : MetricId) : Except Failure (Metric × Registry) :=
  match r.find? id with
  | none => .error (.invalidMetric id.hex)
  | some m => .ok (m, r.setShard id ((r.shard id).filter fun e => e.1 ≠ id) (r.count - 1))

/-- What is in all shards, one after the other. -/
def entries (r : Registry) : List (MetricId × Metric) := r.shards.toList.flatten

/-- Every metric, shard by shard. -/
def metrics (r : Registry) : List Metric := r.entries.map Prod.snd

/-- Takes every metric out of one shard. -/
def drainShard (r : Registry) (i : Fin shardCount) : List Metric × Registry :=
  let drained := (r.content i).map Prod.snd
  (drained, { r with shards := r.shards.set i [] i.isLt, count := r.count - drained.length })

/-- Takes every metric out of some shards, one shard after the other. -/
def drain (r : Registry) (shards : List (Fin shardCount)) : List Metric × Registry :=
  shards.foldl (fun (drained, r) i =>
    let (more, r) := r.drainShard i
    (drained ++ more, r)) ([], r)

/-- Takes every metric out, shard by shard. -/
def removeAll (r : Registry) : List Metric × Registry := r.drain (List.finRange shardCount)

/-- The identities behind others that were listed already, from one shard after the other until
there are `max` of them. -/
def listFrom (max : Nat) (ids : List MetricId) : List (List (MetricId × Metric)) → List MetricId
  | [] => ids
  | shard :: shards =>
    if max ≤ ids.length then ids
    else listFrom max (ids ++ (shard.map Prod.fst).take (max - ids.length)) shards

/-- The identities of at most `max` metrics. -/
def list (r : Registry) (max : Nat) : List MetricId := listFrom max [] r.shards.toList

/-- Replaces the metric of an identity by what a function makes of it, if it is there. -/
def modify? (r : Registry) (id : MetricId) (f : Metric → Except Failure Metric) :
    Option (Except Failure Registry) :=
  (r.find? id).map fun m => (f m).map fun m' =>
    r.setShard id ((r.shard id).map fun e => if e.1 = id then (id, m') else e) r.count

end Registry

end Telemetry
