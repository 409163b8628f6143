import Telemetry.Proofs.Metric.FiniteMap

/-!
# Live metrics

What each operation on a registry does to the list of its metrics. The order of the list is left
open; no identity occurs in it twice.

## Main definitions

* `Registry.IsMap`: the shards and the counter of a registry stand for some map.
* `Registry.Live`: an identity has a metric.
-/
namespace Telemetry

namespace MetricMap

variable {M : MetricMap} {id : MetricId} {m : Metric}

theorem metrics_insert (h : id ∉ M) (m : Metric) : metrics (M.insert id m) = m ::ₘ M.metrics := by
  rw [metrics, metrics, Finmap.entries_insert_of_notMem h, Multiset.map_cons]

theorem insert_erase (h : M.lookup id = some m) : (M.erase id).insert id m = M := by
  apply Finmap.ext_lookup
  intro id'
  by_cases hid : id' = id
  · rw [hid, Finmap.lookup_insert, h]
  · rw [Finmap.lookup_insert_of_ne _ hid, Finmap.lookup_erase_ne hid]

theorem metrics_erase (h : M.lookup id = some m) : M.metrics = m ::ₘ metrics (M.erase id) := by
  rw [← metrics_insert Finmap.notMem_erase_self, insert_erase h]

end MetricMap

namespace Registry

variable {r r' : Registry} {capacity : Nat} {M : MetricMap} {id : MetricId} {m : Metric}

/-- Whether the shards and the counter of a registry stand for a map. -/
def IsMap (r : Registry) : Prop := ∃ capacity M, r.Represents capacity M

/-- Whether there is a metric of an identity. -/
def Live (r : Registry) (id : MetricId) : Prop := ∃ m ∈ r.metrics, m.id = id

theorem Represents.isMap (h : r.Represents capacity M) : r.IsMap := ⟨capacity, M, h⟩

theorem isMap_empty (capacity : Nat) : (empty capacity).IsMap := (represents_empty capacity).isMap

/-- No identity has two metrics. -/
theorem IsMap.nodup (h : r.IsMap) : (r.metrics.map Metric.id).Nodup := by
  obtain ⟨capacity, M, h⟩ := h
  rw [h.map_id_metrics]
  exact h.nodup_ids

theorem IsMap.contains_iff (h : r.IsMap) (id : MetricId) : r.contains id = true ↔ r.Live id := by
  obtain ⟨capacity, M, h⟩ := h
  rw [h.contains_iff, Finmap.mem_iff, Live]
  constructor
  · rintro ⟨m, hm⟩
    rw [← h.mem_entries_iff] at hm
    obtain ⟨i, hi⟩ := mem_entries.mp hm
    exact ⟨m, List.mem_map_of_mem hm, (h.placed i _ hi).2⟩
  · rintro ⟨m, hm, rfl⟩
    obtain ⟨⟨id, m⟩, he, rfl⟩ := List.mem_map.mp hm
    obtain ⟨i, hi⟩ := mem_entries.mp he
    have hid : m.id = id := (h.placed i _ hi).2
    exact ⟨m, h.mem_entries_iff.mp (hid ▸ he)⟩

/-- A listing names live metrics, each of them once and as many as there are. -/
theorem IsMap.list (h : r.IsMap) (max : Nat) : (r.list max).length = min max r.metrics.length ∧
    (r.list max).Nodup ∧ ∀ id ∈ r.list max, r.Live id := by
  have hlive := h.contains_iff
  obtain ⟨capacity, M, h⟩ := h
  obtain ⟨hlength, hnodup, hmem⟩ := h.shows.list max
  have hcard : r.metrics.length = M.keys.card := by
    rw [metrics, List.length_map, h.length_entries, h.count_eq]
  refine ⟨by rw [hlength, hcard], hnodup, fun id hid => ?_⟩
  rw [← hlive, h.contains_iff]
  exact hmem id hid

/-- Who is among the metrics does not depend on their order. -/
theorem live_of_perm_cons (hperm : r'.metrics.Perm (m :: r.metrics)) :
    r'.Live id ↔ m.id = id ∨ r.Live id := by
  simp only [Live, hperm.mem_iff, List.mem_cons, exists_eq_or_imp]

/-! ## One metric -/

theorem IsMap.insert (h : r.IsMap) (hi : r.insert m = .ok r') :
    r'.IsMap ∧ r'.metrics.Perm (m :: r.metrics) := by
  obtain ⟨capacity, M, h⟩ := h
  cases hm : M.lookup m.id with
  | some x =>
    rw [h.insert_of_some hm] at hi
    cases hi
  | none =>
    obtain ⟨r'', hr'', h'⟩ := h.insert_of_none hm
    obtain rfl : r'' = r' := Except.ok.inj (hr''.symm.trans hi)
    refine ⟨h'.isMap, Multiset.coe_eq_coe.mp ?_⟩
    rw [h'.metrics_eq, MetricMap.metrics_insert (Finmap.lookup_eq_none.mp hm), ← h.metrics_eq,
      Multiset.cons_coe]

theorem IsMap.live_of_insert_error (h : r.IsMap) {failure : Failure}
    (hi : r.insert m = .error failure) : r.Live m.id := by
  rw [Registry.insert] at hi
  split at hi
  · rename_i hcontains
    exact (h.contains_iff m.id).mp hcontains
  · cases hi

theorem IsMap.not_live_of_insert (h : r.IsMap) (hi : r.insert m = .ok r') : ¬ r.Live m.id := by
  rw [Registry.insert] at hi
  split at hi
  · cases hi
  · rename_i hcontains
    intro hlive
    exact hcontains ((h.contains_iff m.id).mpr hlive)

theorem IsMap.remove (h : r.IsMap) (hr : r.remove id = .ok (m, r')) :
    r'.IsMap ∧ m.id = id ∧ r.metrics.Perm (m :: r'.metrics) := by
  obtain ⟨capacity, M, h⟩ := h
  cases hm : M.lookup id with
  | none =>
    rw [h.remove_of_none hm] at hr
    cases hr
  | some x =>
    obtain ⟨r'', hr'', h'⟩ := h.remove_of_some hm
    rw [hr''] at hr
    cases hr
    have hid : m.id = id := (h.placed _ _ (mem_shard_of_find? ((h.find?_eq id).trans hm))).2
    refine ⟨h'.isMap, hid, Multiset.coe_eq_coe.mp ?_⟩
    rw [h.metrics_eq, MetricMap.metrics_erase hm, ← h'.metrics_eq, Multiset.cons_coe]

/-- A change of a metric leaves the others alone. -/
theorem IsMap.modify? {f : Metric → Except Failure Metric} (h : r.IsMap)
    (hf : ∀ m m', f m = .ok m' → m'.id = m.id) (hr : r.modify? id f = some (.ok r')) :
    r'.IsMap ∧ ∃ m m' rest, f m = .ok m' ∧ r.metrics.Perm (m :: rest) ∧
      r'.metrics.Perm (m' :: rest) := by
  obtain ⟨capacity, M, h⟩ := h
  obtain ⟨m, hm, hmap⟩ := Option.map_eq_some_iff.mp hr
  obtain ⟨m', hm', -⟩ := Failure.map_eq_ok_iff.mp hmap
  rw [h.find?_eq] at hm
  obtain ⟨r'', hr'', h'⟩ := h.modify? hm hm' (hf m m' hm')
  rw [hr''] at hr
  cases hr
  have hinsert : M.insert id m' = (M.erase id).insert id m' := by
    conv_lhs => rw [← MetricMap.insert_erase hm]
    exact Finmap.insert_insert _
  have hmetrics' : (r'.metrics : Multiset Metric) = m' ::ₘ MetricMap.metrics (M.erase id) := by
    rw [h'.metrics_eq, hinsert, MetricMap.metrics_insert Finmap.notMem_erase_self]
  have hmetrics : (r.metrics : Multiset Metric) = m ::ₘ MetricMap.metrics (M.erase id) := by
    rw [h.metrics_eq, MetricMap.metrics_erase hm]
  refine ⟨h'.isMap, m, m', (MetricMap.metrics (M.erase id)).toList, hm', ?_, ?_⟩
  · rw [← Multiset.coe_eq_coe, hmetrics, ← Multiset.cons_coe, Multiset.coe_toList]
  · rw [← Multiset.coe_eq_coe, hmetrics', ← Multiset.cons_coe, Multiset.coe_toList]

/-! ## Several metrics -/

theorem IsMap.removeAll (h : r.IsMap) : r.removeAll.2.IsMap ∧ r.removeAll.2.metrics = [] := by
  obtain ⟨capacity, M, h⟩ := h
  refine ⟨h.removeAll.isMap, ?_⟩
  rw [← Multiset.coe_eq_zero, h.removeAll.metrics_eq]
  rfl

theorem drainShard_of_nil {i : Fin shardCount} (h : r.content i = []) :
    r.drainShard i = ([], r) := by
  have hset : r.shards.set i [] i.isLt = r.shards := by
    rw [← h]
    exact Vector.set_getElem_self i.isLt
  simp only [drainShard, h, hset, List.map_nil, List.length_nil, Nat.sub_zero]

/-- The first metric of a shard is removed, and then the others are taken out of the shard. -/
theorem drainShard_of_cons {i : Fin shardCount} {rest : List (MetricId × Metric)}
    (h : r.content i = (id, m) :: rest) (hi : shardOf id = i)
    (hnodup : ((r.content i).map Prod.fst).Nodup) :
    ∃ r', r.remove id = .ok (m, r') ∧ r'.content i = rest ∧
      r.drainShard i = (m :: (r'.drainShard i).1, (r'.drainShard i).2) := by
  subst hi
  have hshard : r.shard id = (id, m) :: rest := h
  have hfind : r.find? id = some m := by rw [find?, hshard, List.lookup_cons_self]
  have hrest : ((r.shard id).filter fun e => e.1 ≠ id) = rest := by
    rw [h, List.map_cons, List.nodup_cons] at hnodup
    have hne : ∀ e ∈ rest, e.1 ≠ id := fun e he heq =>
      hnodup.1 (List.mem_map.mpr ⟨e, he, heq⟩)
    rw [hshard, List.filter_cons_of_neg (by simp), List.filter_eq_self]
    simpa using hne
  refine ⟨_, by rw [remove, hfind], ?_, ?_⟩
  · rw [content_setShard, if_pos rfl, hrest]
  · have hcontent : (r.setShard id rest (r.count - 1)).content (shardOf id) = rest := by
      rw [content_setShard, if_pos rfl]
    rw [hrest, drainShard, drainShard, hcontent, h]
    simp only [setShard, Vector.set_set, List.map_cons, List.length_cons, Nat.sub_add_eq,
      Nat.sub_right_comm]

/-- What is taken out of a shard is no longer there, and the other metrics still are. -/
theorem IsMap.drainShard (h : r.IsMap) (i : Fin shardCount) :
    (r.drainShard i).2.IsMap ∧
      r.metrics.Perm ((r.drainShard i).1 ++ (r.drainShard i).2.metrics) := by
  induction hn : r.content i generalizing r with
  | nil =>
    rw [drainShard_of_nil hn]
    exact ⟨h, List.Perm.refl _⟩
  | cons e rest ih =>
    obtain ⟨id, m⟩ := e
    obtain ⟨capacity, M, hM⟩ := h
    have hi : shardOf id = i := (hM.placed i (id, m) (hn ▸ List.mem_cons_self)).1
    obtain ⟨r', hremove, hrest, heq⟩ := drainShard_of_cons hn hi (hM.nodup i)
    obtain ⟨h', -, hperm⟩ := hM.isMap.remove hremove
    obtain ⟨hdrained, hmetrics⟩ := ih h' hrest
    rw [heq]
    exact ⟨hdrained, hperm.trans (hmetrics.cons m)⟩

end Registry

end Telemetry
