import Telemetry.Metric.Registry
import Telemetry.Proofs.Entries
import Telemetry.Proofs.Failure
import Mathlib

/-!
# What holds of every registered metric

A property of metrics holds of everything in a registry if it holds of what is put in and of what a
change makes of a metric. In particular the names of registered metrics keep to their bounds,
because no others can be made.
-/
namespace Telemetry

/-- Whether the names of a metric keep to the bounds on names. -/
def Metric.IsNamed (m : Metric) : Prop :=
  m.name.utf8ByteSize ≤ maxNameLength ∧ m.ns.utf8ByteSize ≤ maxNamespaceLength

/-- Metrics with other names are not made. -/
theorem Metric.isNamed_of_ofSpec {spec : MetricSpec} {capacity : Nat} {m : Metric}
    (h : ofSpec spec capacity = .ok m) : m.IsNamed := by
  simp only [ofSpec, Failure.bind_eq_ok_iff] at h
  obtain ⟨_, hnames, buffer, -, hm⟩ := h
  cases hm
  unfold checkNames at hnames
  split at hnames
  · cases hnames
  · split at hnames
    · cases hnames
    · split at hnames
      · cases hnames
      · exact ⟨Nat.le_of_not_lt ‹¬ maxNameLength < _›, Nat.le_of_not_lt ‹¬ maxNamespaceLength < _›⟩

/-- The identity of the metric that is described. -/
def MetricSpec.id (spec : MetricSpec) : MetricId :=
  MetricId.ofNames spec.ns spec.name spec.tags.toList

/-- A metric is made as it is described, and without a context. -/
theorem Metric.eq_of_ofSpec {spec : MetricSpec} {capacity : Nat} {m : Metric}
    (h : ofSpec spec capacity = .ok m) :
    ∃ buffer, m = ⟨spec.id, spec.ns, spec.name, spec.description, spec.tags, spec.operator,
      buffer, none⟩ := by
  simp only [ofSpec, Failure.bind_eq_ok_iff] at h
  obtain ⟨-, -, buffer, -, hm⟩ := h
  cases hm
  exact ⟨buffer, rfl⟩

/-- Making a metric does not look for others. -/
theorem Metric.ofSpec_ne_metricExists (spec : MetricSpec) (capacity : Nat) (detail : String) :
    ofSpec spec capacity ≠ .error (.metricExists detail) := by
  intro h
  simp only [ofSpec, Failure.bind_eq_error_iff] at h
  rcases h with hnames | ⟨-, -, hbuffer | ⟨buffer, -, hmetric⟩⟩
  · rw [checkNames] at hnames
    split_ifs at hnames <;> cases hnames
  · rw [SampleBuffer.ofCapacity] at hbuffer
    split_ifs at hbuffer <;> cases hbuffer
  · cases hmetric

namespace Registry

variable {P : Metric → Prop} {r r' : Registry} {id : MetricId} {m : Metric}

/-- Whether every metric of a registry has a property. -/
def All (P : Metric → Prop) (r : Registry) : Prop :=
  ∀ i : Fin shardCount, ∀ e ∈ r.content i, P e.2

theorem all_empty (capacity : Nat) : (empty capacity).All P := by
  intro i e he
  simp [content, empty] at he

theorem mem_shard_of_find? (hf : r.find? id = some m) : (id, m) ∈ r.shard id :=
  Entries.mem_of_lookup hf

theorem All.of_find? (h : r.All P) (hf : r.find? id = some m) : P m :=
  h _ _ (mem_shard_of_find? hf)

theorem All.set {i : Fin shardCount} {entries : List (MetricId × Metric)} {count : Nat}
    (h : r.All P) (hm : ∀ e ∈ entries, P e.2) :
    ({ r with shards := r.shards.set i entries i.isLt, count := count } : Registry).All P := by
  intro j e hj
  by_cases hij : i = j
  · subst hij
    simp only [content, Fin.getElem_fin, Vector.getElem_set_self] at hj
    exact hm e hj
  · have hne : (i : Nat) ≠ j := fun he => hij (Fin.ext he)
    simp only [content, Fin.getElem_fin, Vector.getElem_set_ne _ _ hne] at hj
    exact h j e hj

theorem All.insert (h : r.All P) (hm : P m) (hi : r.insert m = .ok r') : r'.All P := by
  unfold Registry.insert at hi
  split at hi
  · cases hi
  · cases hi
    refine h.set fun e he => ?_
    rcases List.mem_append.mp he with he | he
    · exact h _ e he
    · rw [List.mem_singleton.mp he]
      exact hm

theorem All.remove (h : r.All P) (hr : r.remove id = .ok (m, r')) : P m ∧ r'.All P := by
  unfold Registry.remove at hr
  split at hr
  · cases hr
  · rename_i x hf
    cases hr
    exact ⟨h.of_find? hf, h.set fun e he => h _ e (List.mem_of_mem_filter he)⟩

theorem All.modify? {f : Metric → Except Failure Metric} (h : r.All P)
    (hf : ∀ m m', P m → f m = .ok m' → P m') (hr : r.modify? id f = some (.ok r')) : r'.All P := by
  unfold Registry.modify? at hr
  obtain ⟨m, hm, hr⟩ := Option.map_eq_some_iff.mp hr
  obtain ⟨m', hm', rfl⟩ := Failure.map_eq_ok_iff.mp hr
  refine h.set fun e he => ?_
  obtain ⟨x, hx, rfl⟩ := List.mem_map.mp he
  split
  · exact hf m m' (h.of_find? hm) hm'
  · exact h _ x hx

theorem All.drainShard (h : r.All P) (i : Fin shardCount) :
    (∀ m ∈ (r.drainShard i).1, P m) ∧ (r.drainShard i).2.All P := by
  refine ⟨fun m hm => ?_, h.set fun _ he => absurd he List.not_mem_nil⟩
  obtain ⟨e, he, rfl⟩ := List.mem_map.mp hm
  exact h i e he

theorem All.removeAll (h : r.All P) : (∀ m ∈ r.removeAll.1, P m) ∧ r.removeAll.2.All P := by
  unfold Registry.removeAll drain
  refine List.foldlRecOn (motive := fun (d : List Metric × Registry) =>
    (∀ m ∈ d.1, P m) ∧ d.2.All P) _ _ ⟨fun _ hm => absurd hm List.not_mem_nil, h⟩ fun d hd i _ => ?_
  obtain ⟨hmore, hrest⟩ := hd.2.drainShard i
  exact ⟨fun m hm => (List.mem_append.mp hm).elim (hd.1 m) (hmore m), hrest⟩

end Registry

end Telemetry
