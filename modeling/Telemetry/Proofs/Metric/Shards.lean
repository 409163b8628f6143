import Telemetry.Metric.Registry
import Mathlib

/-!
# The shards of a registry

What one shard holds after another one was changed, what all of them hold together, and what is left
when some of them were emptied. The enumerations go through the shards one by one; they are described
by `Registry.entries`, where the shards are no longer told apart.

## Main statements

* `Registry.fst_drain`, `Registry.content_drain`: what is taken out of shards, and what stays.
* `Registry.listFrom_eq_take`: the running remainder of a list cuts where one cut does.
-/
namespace Telemetry.Registry

/-! ## One shard -/

theorem content_setShard (r : Registry) (id : MetricId) (entries : List (MetricId × Metric))
    (count : Nat) (i : Fin shardCount) :
    (r.setShard id entries count).content i = if shardOf id = i then entries else r.content i := by
  simp only [content, setShard, Fin.getElem_fin, Vector.getElem_set, Fin.ext_iff]

theorem find?_setShard (r : Registry) (id id' : MetricId) (entries : List (MetricId × Metric))
    (count : Nat) :
    (r.setShard id entries count).find? id'
      = if shardOf id = shardOf id' then entries.lookup id' else r.find? id' := by
  rw [find?, shard, content_setShard]
  split <;> rfl

/-! ## All shards -/

theorem entries_eq (r : Registry) :
    r.entries = (List.finRange shardCount).flatMap r.content := by
  have htoList : r.shards.toList = (List.finRange shardCount).map r.content := by
    apply List.ext_getElem
    · simp
    · intro i hi hi'
      simp [content]
  rw [entries, htoList, List.flatMap]

theorem mem_entries {r : Registry} {e : MetricId × Metric} :
    e ∈ r.entries ↔ ∃ i : Fin shardCount, e ∈ r.content i := by
  simp [entries_eq]

/-! ## Emptied shards -/

theorem drain_append_singleton (r : Registry) (shards : List (Fin shardCount)) (i : Fin shardCount) :
    r.drain (shards ++ [i]) = ((r.drain shards).1 ++ ((r.drain shards).2.drainShard i).1,
      ((r.drain shards).2.drainShard i).2) := by
  simp only [drain, List.foldl_append, List.foldl_cons, List.foldl_nil]

theorem content_drainShard (r : Registry) (i j : Fin shardCount) :
    (r.drainShard i).2.content j = if i = j then [] else r.content j := by
  simp only [content, drainShard, Fin.getElem_fin, Vector.getElem_set, Fin.ext_iff]

theorem content_drain (r : Registry) (shards : List (Fin shardCount)) (j : Fin shardCount) :
    (r.drain shards).2.content j = if j ∈ shards then [] else r.content j := by
  induction shards using List.reverseRecOn with
  | nil => simp [drain]
  | append_singleton shards i ih =>
    rw [drain_append_singleton, content_drainShard, ih]
    by_cases hij : i = j
    · simp [hij]
    · simp [hij, Ne.symm hij]

theorem capacity_drain (r : Registry) (shards : List (Fin shardCount)) :
    (r.drain shards).2.capacity = r.capacity := by
  induction shards using List.reverseRecOn with
  | nil => rfl
  | append_singleton shards i ih => rw [drain_append_singleton, drainShard, ih]

/-- What is taken out of shards that are all different is what was in them at first. -/
theorem fst_drain (r : Registry) {shards : List (Fin shardCount)} (hnodup : shards.Nodup) :
    (r.drain shards).1 = shards.flatMap fun i => (r.content i).map Prod.snd := by
  induction shards using List.reverseRecOn with
  | nil => rfl
  | append_singleton shards i ih =>
    obtain ⟨hshards, -, hi⟩ := List.nodup_append.mp hnodup
    have hnotMem : i ∉ shards := fun hmem => hi i hmem i (List.mem_singleton_self i) rfl
    rw [drain_append_singleton, ih hshards, drainShard, content_drain, if_neg hnotMem,
      List.flatMap_append, List.flatMap_singleton]

theorem count_drain (r : Registry) (shards : List (Fin shardCount)) :
    (r.drain shards).2.count = r.count - (r.drain shards).1.length := by
  induction shards using List.reverseRecOn with
  | nil => rfl
  | append_singleton shards i ih =>
    rw [drain_append_singleton, drainShard, ih]
    simp only [List.length_append]
    omega

theorem fst_removeAll (r : Registry) : r.removeAll.1 = r.metrics := by
  rw [removeAll, fst_drain r (List.nodup_finRange _), metrics, entries_eq, List.map_flatMap]

/-! ## Listing -/

theorem take_append_take {α : Type} (n : Nat) (l l' : List α) :
    (l.take n ++ l').take n = (l ++ l').take n := by
  rw [List.take_append, List.take_append, List.take_take, List.length_take, Nat.min_self]
  congr 2
  omega

/-- The running remainder cuts the list of all identities off where a single cut does. -/
theorem listFrom_eq_take (max : Nat) (shards : List (List (MetricId × Metric)))
    {ids : List MetricId} (hids : ids.length ≤ max) :
    listFrom max ids shards = (ids ++ shards.flatten.map Prod.fst).take max := by
  induction shards generalizing ids with
  | nil => rw [listFrom, List.flatten_nil, List.map_nil, List.append_nil, List.take_of_length_le hids]
  | cons shard shards ih =>
    rw [listFrom]
    split
    · rename_i hfull
      rw [List.take_append_of_le_length hfull, List.take_of_length_le hids]
    · have hcut : ids ++ (shard.map Prod.fst).take (max - ids.length)
          = (ids ++ shard.map Prod.fst).take max := by
        rw [List.take_append, List.take_of_length_le hids]
      rw [hcut, ih (List.length_take_le _ _), take_append_take, List.flatten_cons, List.map_append,
        List.append_assoc]

end Telemetry.Registry
