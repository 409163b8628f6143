import Telemetry.Proofs.Metric.History
import Telemetry.Proofs.Metric.Live
import Telemetry.Proofs.Metric.Words

/-!
# Metrics that were made from descriptions

A metric is made from a description that was checked, and nothing that is done to it later changes
more than its samples and its context. So what was checked of its names holds for good.

## Main definitions

* `Metric.IsMade`: a metric that was made from a description.

## Main statements

* `Metric.exists_ofSpec_iff`: from which descriptions metrics are made.
* `Registry.All.perform_of_kept`: what every metric of a registry keeps through an operation.
-/
namespace Telemetry

theorem checkNames_eq_ok_iff {ns name description : String} :
    checkNames ns name description = .ok () ↔
      ns ≠ "" ∧ name ≠ "" ∧ ns.utf8ByteSize ≤ maxNamespaceLength ∧
        name.utf8ByteSize ≤ maxNameLength ∧ description.utf8ByteSize ≤ maxDescriptionLength := by
  rw [checkNames]
  split_ifs with hempty hns hname hdescription
  · simp only [false_iff]
    tauto
  · simp only [false_iff]
    omega
  · simp only [false_iff]
    omega
  · simp only [false_iff]
    omega
  · obtain ⟨hns', hname'⟩ := not_or.mp hempty
    exact iff_of_true rfl
      ⟨hns', hname', Nat.le_of_not_lt hns, Nat.le_of_not_lt hname, Nat.le_of_not_lt hdescription⟩

theorem SampleBuffer.exists_ofCapacity_iff {kind : Kind} {capacity : Nat} :
    (∃ b, ofCapacity kind capacity = .ok b) ↔
      0 < capacity ∧ capacity * Sample.packedLength ≤ allocationLimit := by
  rw [ofCapacity]
  split_ifs with hzero hlimit
  · simp [hzero]
  · simp [hlimit]
  · simp only [Except.ok.injEq, exists_eq', true_iff]
    omega

namespace Metric

variable {m : Metric} {spec : MetricSpec} {capacity : Nat}

/-- A metric is made if its names and its description keep to the bounds and there is room for its
samples. -/
theorem exists_ofSpec_iff :
    (∃ m, ofSpec spec capacity = .ok m) ↔
      checkNames spec.ns spec.name spec.description = .ok () ∧
        0 < capacity ∧ capacity * Sample.packedLength ≤ allocationLimit := by
  rw [← @SampleBuffer.exists_ofCapacity_iff spec.kind]
  simp only [ofSpec, Failure.bind_eq_ok_iff]
  constructor
  · rintro ⟨m, _, hnames, b, hb, -⟩
    exact ⟨hnames, b, hb⟩
  · rintro ⟨hnames, b, hb⟩
    exact ⟨_, (), hnames, b, hb, rfl⟩

/-- Whether a metric was made from a description, whatever was recorded or attached since. -/
def IsMade (m : Metric) : Prop :=
  ∃ spec capacity made, ofSpec spec capacity = .ok made ∧
    m = { made with buffer := m.buffer, context := m.context }

theorem isMade_of_ofSpec (h : ofSpec spec capacity = .ok m) : m.IsMade :=
  ⟨spec, capacity, m, h, rfl⟩

theorem IsMade.withBuffer (h : m.IsMade) (b : SampleBuffer) : { m with buffer := b }.IsMade := by
  obtain ⟨spec, capacity, made, hmade, heq⟩ := h
  refine ⟨spec, capacity, made, hmade, ?_⟩
  rw [heq]

theorem IsMade.hasOwnId (h : m.IsMade) : m.HasOwnId := by
  obtain ⟨spec, capacity, made, hmade, heq⟩ := h
  have hown : made.HasOwnId := hasOwnId_of_ofSpec hmade
  rw [heq]
  exact hown

theorem IsMade.checkNames_eq (h : m.IsMade) : checkNames m.ns m.name m.description = .ok () := by
  obtain ⟨spec, capacity, made, hmade, heq⟩ := h
  have hnames := (exists_ofSpec_iff.mp ⟨made, hmade⟩).1
  obtain ⟨buffer, rfl⟩ := eq_of_ofSpec hmade
  rw [heq]
  exact hnames

end Metric

namespace Registry

variable {P : Metric → Prop} {r : Registry} {m : Metric}

theorem All.of_mem_metrics (h : r.All P) (hm : m ∈ r.metrics) : P m := by
  obtain ⟨e, he, rfl⟩ := List.mem_map.mp hm
  obtain ⟨i, hi⟩ := mem_entries.mp he
  exact h i e hi

theorem All.change {f : Metric → Except Failure Metric} (h : r.All P)
    (hf : ∀ m m', P m → f m = .ok m' → P m') (id : MetricId) : (r.change id f).2.All P := by
  rw [Registry.change]
  split
  · exact h
  · rename_i hr
    exact h.modify? hf hr
  · exact h

/-- What holds of every metric that is made or inserted, and of the samples depends on nothing but
the room for them, goes on to hold of every metric of a registry. -/
theorem All.perform_of_kept (h : r.All P)
    (hmade : ∀ spec capacity m, Metric.ofSpec spec capacity = .ok m → P m)
    (hbuffer : ∀ (m : Metric) (b : SampleBuffer), P m → b.capacity = m.buffer.capacity →
      P { m with buffer := b })
    {op : RegistryOperation} (hinsert : ∀ m : Metric, op = .insert m → P m) :
    (r.perform op).2.All P := by
  cases op with
  | create spec =>
    rw [Registry.perform]
    split
    · rename_i hcreate
      obtain ⟨m, hm, hcreate⟩ := Failure.bind_eq_ok_iff.mp hcreate
      obtain ⟨r', hr', heq⟩ := Failure.bind_eq_ok_iff.mp hcreate
      cases heq
      exact h.insert (hmade spec _ _ hm) hr'
    · exact h
  | insert m =>
    rw [Registry.perform]
    split
    · rename_i hr
      exact h.insert (hinsert m rfl) hr
    · exact h
  | remove id =>
    rw [Registry.perform]
    split
    · rename_i hremove
      exact (h.remove hremove).2
    · exact h
  | removeAll => exact h.removeAll.2
  | update id value time writer =>
    refine h.change (fun m m' hm hok => ?_) id
    obtain ⟨b, hb, rfl⟩ := Failure.map_eq_ok_iff.mp hok
    obtain ⟨-, -, hpush⟩ := SampleBuffer.admits_of_append hb
    exact hbuffer m b hm (SampleBuffer.extended_of_push hpush).capacity
  | updateDelta id delta time writer =>
    refine h.change (fun m m' hm hok => ?_) id
    obtain ⟨b, hb, rfl⟩ := Failure.map_eq_ok_iff.mp hok
    obtain ⟨-, hpush⟩ := SampleBuffer.isGauge_of_appendDelta hb
    exact hbuffer m b hm (SampleBuffer.extended_of_push hpush).capacity

theorem All.performAll_of_kept {ops : List RegistryOperation} (h : r.All P)
    (hmade : ∀ spec capacity m, Metric.ofSpec spec capacity = .ok m → P m)
    (hbuffer : ∀ (m : Metric) (b : SampleBuffer), P m → b.capacity = m.buffer.capacity →
      P { m with buffer := b })
    (hinsert : ∀ m : Metric, .insert m ∈ ops → P m) :
    (RegistryOperation.performAll Registry.perform r ops).2.All P := by
  induction ops generalizing r with
  | nil => exact h
  | cons op ops ih =>
    have hop : ∀ m : Metric, op = .insert m → P m := by
      rintro m rfl
      exact hinsert m List.mem_cons_self
    exact ih (h.perform_of_kept hmade hbuffer hop) fun m hm => hinsert m (List.mem_cons_of_mem _ hm)

/-- What does not depend on the samples at all. -/
theorem All.performAll_of_made {ops : List RegistryOperation} (h : r.All P)
    (hmade : ∀ spec capacity m, Metric.ofSpec spec capacity = .ok m → P m)
    (hbuffer : ∀ (m : Metric) (b : SampleBuffer), P m → P { m with buffer := b })
    (hinsert : ∀ m : Metric, .insert m ∈ ops → P m) :
    (RegistryOperation.performAll Registry.perform r ops).2.All P :=
  h.performAll_of_kept hmade (fun m b hm _ => hbuffer m b hm) hinsert

end Registry

end Telemetry
