import Telemetry.Proofs.Entries
import Telemetry.Proofs.Metric.Registered
import Telemetry.Proofs.Metric.Shards
import Mathlib

/-!
# A registry is one finite map

Sixteen shards and a counter are changed one by one, and together they are a single map from
identities to metrics: whatever is done, the registry answers as the map does, and afterwards its
shards hold the map's entries. The order in which it enumerates them is left open: what is taken out
all at once is compared as a multiset.

## Main definitions

* `MetricMap.perform`: what an operation does to a single map.
* `Registry.Represents`: the shards and the counter stand for a map.

## Main statements

* `Registry.Represents.perform`: every operation keeps the registry in step with the map.
* `Registry.performAll_represents`: so does every sequence of operations.
-/
namespace Telemetry

/-! ## Operations -/

/-- An operation on metrics by identity. -/
inductive RegistryOperation where
  | create (spec : MetricSpec)
  | insert (m : Metric)
  | remove (id : MetricId)
  | removeAll
  /-- Records a value of a metric. -/
  | update (id : MetricId) (value time : Double) (writer : UInt64)
  /-- Records the last value of a metric changed by something. -/
  | updateDelta (id : MetricId) (delta time : Double) (writer : UInt64)

/-- What an operation gives back. -/
inductive RegistryAnswer where
  /-- A metric that was made or taken out. -/
  | metric (r : Except Failure Metric)
  | done (r : Except Failure Unit)
  /-- Every metric. -/
  | all (metrics : Multiset Metric)
  /-- Whether a value was recorded, if the metric is there. -/
  | recorded (r : Option (Except Failure Unit))

/-- The answers to operations one after the other, and the state behind them. -/
def RegistryOperation.performAll {σ : Type} (perform : σ → RegistryOperation → RegistryAnswer × σ)
    (s : σ) : List RegistryOperation → List RegistryAnswer × σ
  | [] => ([], s)
  | op :: ops =>
    let (answer, s) := perform s op
    let (answers, s) := performAll perform s ops
    (answer :: answers, s)

namespace Registry

/-- Replaces a metric by what a function makes of it. -/
def change (r : Registry) (id : MetricId) (f : Metric → Except Failure Metric) :
    RegistryAnswer × Registry :=
  match r.modify? id f with
  | none => (.recorded none, r)
  | some (.ok r) => (.recorded (some (.ok ())), r)
  | some (.error failure) => (.recorded (some (.error failure)), r)

/-- What an operation does to a registry. -/
def perform (r : Registry) : RegistryOperation → RegistryAnswer × Registry
  | .create spec =>
    match r.create spec with
    | .ok (m, r) => (.metric (.ok m), r)
    | .error failure => (.metric (.error failure), r)
  | .insert m =>
    match r.insert m with
    | .ok r => (.done (.ok ()), r)
    | .error failure => (.done (.error failure), r)
  | .remove id =>
    match r.remove id with
    | .ok (m, r) => (.metric (.ok m), r)
    | .error failure => (.metric (.error failure), r)
  | .removeAll => (.all r.removeAll.1, r.removeAll.2)
  | .update id value time writer => r.change id fun m => m.update value time writer
  | .updateDelta id delta time writer => r.change id fun m => m.updateDelta delta time writer

end Registry

/-- A finite map from identities to metrics. -/
abbrev MetricMap := Finmap fun _ : MetricId => Metric

namespace MetricMap

/-- The metrics of a map. -/
def metrics (M : MetricMap) : Multiset Metric := M.entries.map Sigma.snd

/-- Adds a metric under its identity, unless that is taken. -/
def add (M : MetricMap) (m : Metric) : Except Failure MetricMap :=
  match M.lookup m.id with
  | some _ => .error (Registry.taken m)
  | none => .ok (M.insert m.id m)

/-- Replaces a metric by what a function makes of it. -/
def change (M : MetricMap) (id : MetricId) (f : Metric → Except Failure Metric) :
    RegistryAnswer × MetricMap :=
  match M.lookup id with
  | none => (.recorded none, M)
  | some m =>
    match f m with
    | .ok m => (.recorded (some (.ok ())), M.insert id m)
    | .error failure => (.recorded (some (.error failure)), M)

/-- What an operation does to a map. Metrics are made with the given room for samples. -/
def perform (capacity : Nat) (M : MetricMap) : RegistryOperation → RegistryAnswer × MetricMap
  | .create spec =>
    match Metric.ofSpec spec capacity with
    | .error failure => (.metric (.error failure), M)
    | .ok m =>
      match M.add m with
      | .ok M => (.metric (.ok m), M)
      | .error failure => (.metric (.error failure), M)
  | .insert m =>
    match M.add m with
    | .ok M => (.done (.ok ()), M)
    | .error failure => (.done (.error failure), M)
  | .remove id =>
    match M.lookup id with
    | none => (.metric (.error (.invalidMetric id.hex)), M)
    | some m => (.metric (.ok m), M.erase id)
  | .removeAll => (.all M.metrics, ∅)
  | .update id value time writer => M.change id fun m => m.update value time writer
  | .updateDelta id delta time writer => M.change id fun m => m.updateDelta delta time writer

theorem keys_insert (M : MetricMap) (id : MetricId) (m : Metric) :
    (M.insert id m).keys = Insert.insert id M.keys := by
  ext id'
  rw [Finmap.mem_keys, Finmap.mem_insert, Finset.mem_insert, Finmap.mem_keys]

end MetricMap

namespace Metric

variable {m m' : Metric}

theorem id_of_update {value time : Double} {writer : UInt64}
    (h : m.update value time writer = .ok m') : m'.id = m.id := by
  obtain ⟨buffer, -, rfl⟩ := Failure.map_eq_ok_iff.mp h
  rfl

theorem id_of_updateDelta {delta time : Double} {writer : UInt64}
    (h : m.updateDelta delta time writer = .ok m') : m'.id = m.id := by
  obtain ⟨buffer, -, rfl⟩ := Failure.map_eq_ok_iff.mp h
  rfl

end Metric

namespace Registry

variable {r r' : Registry} {capacity : Nat} {M M' : MetricMap} {id : MetricId} {m m' : Metric}

/-! ## Standing for a map -/

/-- The shards and the counter of a registry stand for a map. -/
structure Represents (r : Registry) (capacity : Nat) (M : MetricMap) : Prop where
  capacity_eq : r.capacity = capacity
  /-- An entry is in the shard of its identity, which is that of its metric. -/
  placed : ∀ i : Fin shardCount, ∀ e ∈ r.content i, shardOf e.1 = i ∧ e.2.id = e.1
  nodup : ∀ i : Fin shardCount, ((r.content i).map Prod.fst).Nodup
  find?_eq : ∀ id, r.find? id = M.lookup id
  count_eq : r.count = M.keys.card

theorem represents_empty (capacity : Nat) : (empty capacity).Represents capacity ∅ where
  capacity_eq := rfl
  placed i e he := by simp [content, empty] at he
  nodup i := by simp [content, empty]
  find?_eq id := by simp [find?, shard, content, empty]
  count_eq := rfl

theorem Represents.lookup_shard (h : r.Represents capacity M) {id' : MetricId}
    (hid : shardOf id = shardOf id') : (r.shard id).lookup id' = M.lookup id' := by
  rw [← h.find?_eq]
  simp only [find?, shard, hid]

theorem Represents.contains_iff (h : r.Represents capacity M) (id : MetricId) :
    r.contains id = true ↔ id ∈ M := by
  rw [← not_iff_not, ← Finmap.lookup_eq_none, ← h.find?_eq, find?,
    Entries.lookup_eq_none_iff_notMem, contains, List.any_eq_true, List.mem_map]
  simp

theorem Represents.notMem_keys_shard (h : r.Represents capacity M) (hm : M.lookup id = none) :
    id ∉ (r.shard id).map Prod.fst :=
  Entries.lookup_eq_none_iff_notMem.mp ((h.find?_eq id).trans hm)

/-- Changing what is under one identity in its shard stands for changing it in the map. -/
theorem Represents.setShard (h : r.Represents capacity M) {entries : List (MetricId × Metric)}
    {count : Nat} (hplaced : ∀ e ∈ entries, shardOf e.1 = shardOf id ∧ e.2.id = e.1)
    (hnodup : (entries.map Prod.fst).Nodup)
    (hlookup : ∀ id', entries.lookup id'
      = if id' = id then M'.lookup id else (r.shard id).lookup id')
    (hframe : ∀ id', id' ≠ id → M'.lookup id' = M.lookup id') (hcount : count = M'.keys.card) :
    (r.setShard id entries count).Represents capacity M' where
  capacity_eq := h.capacity_eq
  placed i e he := by
    rw [content_setShard] at he
    split at he
    · rename_i hi
      exact hi ▸ hplaced e he
    · exact h.placed i e he
  nodup i := by
    rw [content_setShard]
    split
    · exact hnodup
    · exact h.nodup i
  find?_eq id' := by
    by_cases hid : id' = id
    · subst hid
      rw [find?_setShard, if_pos rfl, hlookup, if_pos rfl]
    · rw [find?_setShard, hlookup, if_neg hid, hframe id' hid]
      split
      · exact h.lookup_shard ‹_›
      · exact h.find?_eq id'
  count_eq := hcount

/-! ## One operation -/

theorem Represents.insert_of_some (h : r.Represents capacity M) {x : Metric}
    (hx : M.lookup m.id = some x) : r.insert m = .error (taken m) := by
  rw [insert, if_pos ((h.contains_iff _).mpr (Finmap.mem_iff.mpr ⟨x, hx⟩))]

theorem Represents.insert_of_none (h : r.Represents capacity M) (hm : M.lookup m.id = none) :
    ∃ r', r.insert m = .ok r' ∧ r'.Represents capacity (M.insert m.id m) := by
  have hnotMem : m.id ∉ M := Finmap.lookup_eq_none.mp hm
  refine ⟨_, by rw [insert, if_neg (mt (h.contains_iff _).mp hnotMem)],
    h.setShard ?_ ?_ (fun id' => ?_) (fun id' hid => Finmap.lookup_insert_of_ne _ hid) ?_⟩
  · rw [List.forall_mem_append]
    exact ⟨fun e he => h.placed _ e he, by simp⟩
  · rw [List.map_append, List.nodup_append]
    refine ⟨h.nodup _, List.nodup_singleton _, fun id' hid' x hx heq => ?_⟩
    rw [heq, List.mem_singleton.mp hx] at hid'
    exact h.notMem_keys_shard hm hid'
  · rw [List.lookup_append, Entries.lookup_singleton, Finmap.lookup_insert]
    by_cases hid : id' = m.id
    · rw [if_pos hid, if_pos hid, hid, h.lookup_shard rfl, hm, Option.none_or]
    · rw [if_neg hid, if_neg hid, Option.or_none]
  · rw [MetricMap.keys_insert, Finset.card_insert_of_notMem (mt Finmap.mem_keys.mp hnotMem),
      h.count_eq]

theorem Represents.remove_of_none (h : r.Represents capacity M) (hm : M.lookup id = none) :
    r.remove id = .error (.invalidMetric id.hex) := by
  rw [remove, h.find?_eq, hm]

theorem Represents.remove_of_some (h : r.Represents capacity M) (hm : M.lookup id = some m) :
    ∃ r', r.remove id = .ok (m, r') ∧ r'.Represents capacity (M.erase id) := by
  refine ⟨_, by rw [remove, h.find?_eq, hm],
    h.setShard ?_ ?_ (fun id' => ?_) (fun id' hid => Finmap.lookup_erase_ne hid) ?_⟩
  · exact fun e he => h.placed _ e (List.mem_of_mem_filter he)
  · exact (h.nodup _).sublist (List.filter_sublist.map _)
  · rw [Finmap.lookup_erase]
    exact Entries.lookup_filter_ne _ _ _
  · have hmem : id ∈ M.keys := Finmap.mem_keys.mpr (Finmap.mem_of_lookup_eq_some hm)
    rw [Finmap.keys_erase, Finset.card_erase_of_mem hmem, h.count_eq]

/-- What is put in place of a metric keeps its identity. -/
theorem Represents.modify? (h : r.Represents capacity M) (hm : M.lookup id = some m)
    {f : Metric → Except Failure Metric} (hf : f m = .ok m') (hid' : m'.id = m.id) :
    ∃ r', r.modify? id f = some (.ok r') ∧ r'.Represents capacity (M.insert id m') := by
  have hmem : id ∈ M.keys := Finmap.mem_keys.mpr (Finmap.mem_of_lookup_eq_some hm)
  have hid : m'.id = id := hid'.trans (h.placed _ _ (mem_shard_of_find? ((h.find?_eq id).trans hm))).2
  refine ⟨_, by rw [Registry.modify?, h.find?_eq, hm, Option.map_some, hf, Except.map],
    h.setShard ?_ ?_ (fun id' => ?_) (fun id' hid => Finmap.lookup_insert_of_ne _ hid) ?_⟩
  · intro e he
    obtain ⟨x, hx, rfl⟩ := List.mem_map.mp he
    split
    · exact ⟨rfl, hid⟩
    · exact h.placed _ x hx
  · rw [Entries.map_fst_replace]
    exact h.nodup _
  · rw [Entries.lookup_replace, h.lookup_shard rfl, hm, Option.map_some, Finmap.lookup_insert]
  · rw [MetricMap.keys_insert, Finset.insert_eq_of_mem hmem, h.count_eq]

/-! ## All shards together -/

theorem Represents.mem_entries_iff (h : r.Represents capacity M) :
    (id, m) ∈ r.entries ↔ M.lookup id = some m := by
  rw [← h.find?_eq, find?, shard, Entries.lookup_eq_some_iff_mem (h.nodup _), mem_entries]
  constructor
  · rintro ⟨i, hi⟩
    rw [(h.placed i _ hi).1]
    exact hi
  · intro hmem
    exact ⟨_, hmem⟩

theorem Represents.nodup_ids (h : r.Represents capacity M) : (r.entries.map Prod.fst).Nodup := by
  rw [entries_eq, List.map_flatMap, List.nodup_flatMap]
  refine ⟨fun i _ => h.nodup i, (List.nodup_finRange shardCount).imp fun {i j} hne => ?_⟩
  rw [Function.onFun, List.disjoint_left]
  -- an identity in both shards belongs to either
  intro id hi hj
  obtain ⟨e, he, rfl⟩ := List.mem_map.mp hi
  obtain ⟨e', he', heq⟩ := List.mem_map.mp hj
  apply hne
  rw [← (h.placed i e he).1, ← heq, (h.placed j e' he').1]

/-- The entries of all shards are those of the map, in some order. -/
theorem Represents.entries_eq_map (h : r.Represents capacity M) :
    ((r.entries.map fun e => (⟨e.1, e.2⟩ : Σ _ : MetricId, Metric)) : Multiset _) = M.entries := by
  have hnodup : (r.entries.map fun e => (⟨e.1, e.2⟩ : Σ _ : MetricId, Metric)).Nodup := by
    apply List.Nodup.of_map Sigma.fst
    rw [List.map_map]
    exact h.nodup_ids
  rw [Multiset.Nodup.ext (Multiset.coe_nodup.mpr hnodup) M.nodup_entries]
  rintro ⟨id, m⟩
  rw [← Finmap.lookup_eq_some_iff, ← h.mem_entries_iff, Multiset.mem_coe, List.mem_map]
  constructor
  · rintro ⟨⟨id', m'⟩, he, heq⟩
    cases heq
    exact he
  · intro he
    exact ⟨_, he, rfl⟩

theorem Represents.metrics_eq (h : r.Represents capacity M) :
    (r.metrics : Multiset Metric) = M.metrics := by
  rw [MetricMap.metrics, ← h.entries_eq_map, Multiset.map_coe, List.map_map]
  rfl

theorem Represents.length_entries (h : r.Represents capacity M) : r.entries.length = r.count := by
  have hcard : M.keys.card = Multiset.card M.entries := Multiset.card_map _ _
  rw [h.count_eq, hcard, ← h.entries_eq_map, Multiset.coe_card, List.length_map]

/-- A metric is there once, under its own identity. -/
theorem Represents.map_id_metrics (h : r.Represents capacity M) :
    r.metrics.map Metric.id = r.entries.map Prod.fst := by
  rw [metrics, List.map_map]
  refine List.map_congr_left fun e he => ?_
  obtain ⟨i, hi⟩ := mem_entries.mp he
  exact (h.placed i e hi).2

/-! ## Taking everything out -/

/-- The counter goes down by what was in the shards, and that is never more than it holds. -/
theorem Represents.count_drain_add (h : r.Represents capacity M) {shards : List (Fin shardCount)}
    (hshards : shards.Sublist (List.finRange shardCount)) :
    (r.drain shards).2.count + (r.drain shards).1.length = r.count := by
  have hle : (r.drain shards).1.length ≤ r.metrics.length := by
    rw [← fst_removeAll, removeAll, fst_drain r (hshards.nodup (List.nodup_finRange _)),
      fst_drain r (List.nodup_finRange _)]
    exact (hshards.flatMap _).length_le
  rw [metrics, List.length_map, h.length_entries] at hle
  rw [count_drain]
  omega

theorem Represents.removeAll (h : r.Represents capacity M) :
    r.removeAll.2.Represents capacity ∅ := by
  have hempty : ∀ i : Fin shardCount, r.removeAll.2.content i = [] := by
    intro i
    rw [Registry.removeAll, content_drain, if_pos (List.mem_finRange i)]
  refine ⟨(capacity_drain r _).trans h.capacity_eq, ?_, ?_, ?_, ?_⟩
  · intro i e he
    rw [hempty] at he
    cases he
  · intro i
    rw [hempty]
    exact List.nodup_nil
  · intro id
    rw [find?, shard, hempty]
    rfl
  · have hcount := h.count_drain_add (List.Sublist.refl _)
    have hlength : r.removeAll.1.length = r.count := by
      rw [fst_removeAll, metrics, List.length_map, h.length_entries]
    change (r.drain _).2.count = 0
    rw [Registry.removeAll] at hlength
    omega

/-! ## Every operation -/

theorem Represents.change (h : r.Represents capacity M) (id : MetricId)
    {f : Metric → Except Failure Metric} (hf : ∀ m m', f m = .ok m' → m'.id = m.id) :
    (r.change id f).1 = (M.change id f).1 ∧
      (r.change id f).2.Represents capacity (M.change id f).2 := by
  rw [Registry.change, MetricMap.change]
  cases hm : M.lookup id with
  | none =>
    have hnone : r.modify? id f = none := by
      rw [Registry.modify?, h.find?_eq, hm, Option.map_none]
    rw [hnone]
    exact ⟨rfl, h⟩
  | some m =>
    cases hfm : f m with
    | ok m' =>
      obtain ⟨r', hr', h'⟩ := h.modify? hm hfm (hf m m' hfm)
      simp only [hr', hfm]
      exact ⟨trivial, h'⟩
    | error failure =>
      have herror : r.modify? id f = some (.error failure) := by
        rw [Registry.modify?, h.find?_eq, hm, Option.map_some, hfm, Except.map]
      simp only [herror, hfm]
      exact ⟨trivial, h⟩

theorem Represents.add (h : r.Represents capacity M) (m : Metric) :
    (∃ failure, r.insert m = .error failure ∧ M.add m = .error failure) ∨
    ∃ r' M', r.insert m = .ok r' ∧ M.add m = .ok M' ∧ r'.Represents capacity M' := by
  unfold MetricMap.add
  cases hm : M.lookup m.id with
  | some x => exact .inl ⟨_, h.insert_of_some hm, rfl⟩
  | none =>
    obtain ⟨r', hr', h'⟩ := h.insert_of_none hm
    exact .inr ⟨r', _, hr', rfl, h'⟩

/-- The registry and the map give the same answer to an operation, and the one stands for the other
afterwards. -/
theorem Represents.perform (h : r.Represents capacity M) (op : RegistryOperation) :
    (r.perform op).1 = (M.perform capacity op).1 ∧
      (r.perform op).2.Represents capacity (M.perform capacity op).2 := by
  cases op with
  | create spec =>
    rw [Registry.perform, MetricMap.perform, Registry.create, h.capacity_eq]
    cases hspec : Metric.ofSpec spec capacity with
    | error failure => exact ⟨rfl, h⟩
    | ok m =>
      obtain ⟨failure, hr, hM⟩ | ⟨r', M', hr, hM, h'⟩ := h.add m
      · simp only [hM, hr, bind, Except.bind]
        exact ⟨trivial, h⟩
      · simp only [hM, hr, bind, Except.bind, pure, Except.pure]
        exact ⟨trivial, h'⟩
  | insert m =>
    rw [Registry.perform, MetricMap.perform]
    obtain ⟨failure, hr, hM⟩ | ⟨r', M', hr, hM, h'⟩ := h.add m
    · rw [hr, hM]
      exact ⟨rfl, h⟩
    · rw [hr, hM]
      exact ⟨rfl, h'⟩
  | remove id =>
    rw [Registry.perform, MetricMap.perform]
    cases hm : M.lookup id with
    | none =>
      rw [h.remove_of_none hm]
      exact ⟨rfl, h⟩
    | some m =>
      obtain ⟨r', hr', h'⟩ := h.remove_of_some hm
      rw [hr']
      exact ⟨rfl, h'⟩
  | removeAll =>
    refine ⟨?_, h.removeAll⟩
    rw [Registry.perform, MetricMap.perform, fst_removeAll, h.metrics_eq]
  | update id value time writer => exact h.change id fun m m' => Metric.id_of_update
  | updateDelta id delta time writer => exact h.change id fun m m' => Metric.id_of_updateDelta

theorem Represents.performAll (h : r.Represents capacity M) (ops : List RegistryOperation) :
    (RegistryOperation.performAll Registry.perform r ops).1
      = (RegistryOperation.performAll (MetricMap.perform capacity) M ops).1 ∧
    (RegistryOperation.performAll Registry.perform r ops).2.Represents capacity
      (RegistryOperation.performAll (MetricMap.perform capacity) M ops).2 := by
  induction ops generalizing r M with
  | nil => exact ⟨rfl, h⟩
  | cons op ops ih =>
    obtain ⟨hanswer, h'⟩ := h.perform op
    obtain ⟨hanswers, hlast⟩ := ih h'
    simp only [RegistryOperation.performAll]
    exact ⟨by rw [hanswer, hanswers], hlast⟩

/-- Whether a list names at most `max` metrics of a map, each of them once and as many as there
are. -/
structure Lists (M : MetricMap) (max : Nat) (ids : List MetricId) : Prop where
  length_eq : ids.length = min max M.keys.card
  nodup : ids.Nodup
  mem : ∀ id ∈ ids, id ∈ M

/-- What can be seen of a registry that stands for a map. -/
structure Shows (r : Registry) (M : MetricMap) : Prop where
  find? : ∀ id, r.find? id = M.lookup id
  contains : ∀ id, r.contains id = true ↔ id ∈ M
  /-- Every metric of the map is enumerated once. -/
  metrics : (r.metrics : Multiset Metric) = M.metrics
  nodup : (r.metrics.map Metric.id).Nodup
  /-- The counter is the number of entries of all shards, and of the map. -/
  count : r.count = r.entries.length ∧ r.count = M.keys.card
  list : ∀ max, Lists M max (r.list max)
  /-- It does not matter in which order the shards list what is in them. -/
  listFrom : ∀ max shards, List.Forall₂ List.Perm shards r.shards.toList →
    Lists M max (listFrom max [] shards)
  /-- Taking a metric out takes one off the counter, which is not zero. -/
  count_remove : ∀ id m r', r.remove id = .ok (m, r') → r'.count + 1 = r.count
  /-- On the way to an empty registry the counter never falls below zero either. -/
  count_drain : ∀ shards, shards <+: List.finRange shardCount →
    (r.drain shards).2.count + (r.drain shards).1.length = r.count

theorem Represents.count_remove (h : r.Represents capacity M) (hr : r.remove id = .ok (m, r')) :
    r'.count + 1 = r.count := by
  cases hm : M.lookup id with
  | none =>
    rw [h.remove_of_none hm] at hr
    cases hr
  | some x =>
    obtain ⟨r'', hr'', h'⟩ := h.remove_of_some hm
    rw [hr''] at hr
    cases hr
    have hmem : id ∈ M.keys := Finmap.mem_keys.mpr (Finmap.mem_of_lookup_eq_some hm)
    rw [h.count_eq, h'.count_eq, Finmap.keys_erase, Finset.card_erase_add_one hmem]

theorem Represents.lists (h : r.Represents capacity M) (max : Nat)
    {shards : List (List (MetricId × Metric))}
    (hshards : List.Forall₂ List.Perm shards r.shards.toList) :
    Lists M max (listFrom max [] shards) := by
  have hperm : (shards.flatten.map Prod.fst).Perm (r.entries.map Prod.fst) :=
    (List.Perm.flatten_congr hshards).map Prod.fst
  have hlist : Registry.listFrom max [] shards = (shards.flatten.map Prod.fst).take max :=
    listFrom_eq_take max shards (Nat.zero_le max)
  rw [hlist]
  refine ⟨?_, ?_, fun id hid => ?_⟩
  · rw [List.length_take, hperm.length_eq, List.length_map, h.length_entries, h.count_eq]
  · exact (hperm.nodup_iff.mpr h.nodup_ids).sublist (List.take_sublist _ _)
  · obtain ⟨e, he, rfl⟩ := List.mem_map.mp (hperm.mem_iff.mp (List.mem_of_mem_take hid))
    exact Finmap.mem_of_lookup_eq_some (h.mem_entries_iff.mp he)

theorem Represents.shows (h : r.Represents capacity M) : r.Shows M where
  find? := h.find?_eq
  contains := h.contains_iff
  metrics := h.metrics_eq
  nodup := by
    rw [h.map_id_metrics]
    exact h.nodup_ids
  count := ⟨h.length_entries.symm, h.count_eq⟩
  list max := h.lists max (List.forall₂_same.mpr fun shard _ => List.Perm.refl shard)
  listFrom max shards := h.lists max
  count_remove id m r' := h.count_remove
  count_drain shards hshards := h.count_drain_add hshards.sublist

/-- Whatever is done to a new registry and to an empty map, the two give the same answers, and then
the shards and the counter stand for the map. -/
theorem performAll_represents (capacity : Nat) (ops : List RegistryOperation) :
    let registry := RegistryOperation.performAll Registry.perform (empty capacity) ops
    let map := RegistryOperation.performAll (MetricMap.perform capacity) ∅ ops
    registry.1 = map.1 ∧ registry.2.Represents capacity map.2 ∧ registry.2.Shows map.2 := by
  obtain ⟨hanswers, h⟩ := (represents_empty capacity).performAll ops
  exact ⟨hanswers, h, h.shows⟩

end Registry

end Telemetry
