import Telemetry.Proofs.Metric.TagOrder

/-!
# Metrics that share an identity

The identity of a metric is the exclusive or of the hashes of its namespace, its name and its tags.
Equal texts cancel in pairs, wherever they stand, and what is left may cancel without two hashes
being equal. So a hash that tells the texts apart does not tell the metrics apart: two metrics share
an identity exactly if the hashes of the texts that occur in them an odd number of times cancel.

## Main definitions

* `MetricId.oddOnes`: the texts that occur an odd number of times.
* `MetricId.Distinct`: no two of some texts have the same hash.
* `MetricId.Independent`: no selection of some texts has hashes that cancel.
* `Registry.SideBySide`: two metrics can be registered together.

## Main statements

* `MetricId.mix_oddOnes`: equal texts cancel in pairs.
* `MetricId.Independent.mix_eq_zero_iff`: when hashes that are independent cancel.
* `Registry.performAll_sideBySide`: which metrics can be registered together after any operations.
-/
namespace Telemetry

namespace MetricId

variable {ns name : String} {texts : List String}

/-! ## Hashes that cancel -/

/-- The exclusive or of the hashes of some texts. -/
def mix (texts : List String) : UInt32 := texts.foldr (fun text acc => djb2 text ^^^ acc) 0

@[simp] theorem mix_nil : mix [] = 0 := rfl

@[simp] theorem mix_cons (text : String) (texts : List String) :
    mix (text :: texts) = djb2 text ^^^ mix texts := rfl

theorem mix_append (first second : List String) :
    mix (first ++ second) = mix first ^^^ mix second := by
  induction first with
  | nil => simp
  | cons text first ih => rw [List.cons_append, mix_cons, mix_cons, ih, UInt32.xor_assoc]

theorem mix_perm {texts texts' : List String} (h : texts.Perm texts') : mix texts = mix texts' := by
  induction h with
  | nil => rfl
  | cons text _ ih => rw [mix_cons, mix_cons, ih]
  | swap text text' texts =>
    simp only [mix_cons, ← UInt32.xor_assoc]
    rw [UInt32.xor_comm (djb2 text)]
  | trans _ _ ih ih' => exact ih.trans ih'

/-- An identity does not tell which of the texts is the namespace and which the name. -/
theorem val_ofNames (ns name : String) (tags : List String) :
    (ofNames ns name tags).val = mix (ns :: name :: tags) := by
  induction tags with
  | nil => simp [ofNames]
  | cons tag tags ih =>
    have hperm : ([ns, name] ++ tag :: tags).Perm (tag :: ([ns, name] ++ tags)) :=
      List.perm_middle
    rw [val_ofNames_cons, ih, UInt32.xor_comm]
    exact (mix_perm hperm).symm

/-- The texts that occur an odd number of times, each of them once. -/
def oddOnes (texts : List String) : List String :=
  texts.dedup.filter fun text => texts.count text % 2 = 1

theorem nodup_oddOnes (texts : List String) : (oddOnes texts).Nodup :=
  (List.nodup_dedup texts).filter _

theorem mem_oddOnes {text : String} : text ∈ oddOnes texts ↔ texts.count text % 2 = 1 := by
  rw [oddOnes, List.mem_filter, List.mem_dedup, decide_eq_true_eq]
  refine and_iff_right_of_imp fun h => ?_
  by_contra hmem
  rw [List.count_eq_zero_of_not_mem hmem] at h
  contradiction

theorem mem_oddOnes_cons {text t : String} :
    t ∈ oddOnes (text :: texts) ↔ if t = text then t ∉ oddOnes texts else t ∈ oddOnes texts := by
  simp only [mem_oddOnes]
  by_cases ht : t = text
  · subst ht
    rw [if_pos rfl, List.count_cons_self]
    omega
  · rw [if_neg ht, List.count_cons_of_ne (Ne.symm ht)]

/-- One more text is added to those that occur an odd number of times, or taken out. -/
theorem oddOnes_cons_perm (text : String) (texts : List String) :
    (oddOnes (text :: texts)).Perm
      (if text ∈ oddOnes texts then (oddOnes texts).erase text else text :: oddOnes texts) := by
  have hnodup := nodup_oddOnes texts
  split_ifs with hmem
  · rw [List.perm_ext_iff_of_nodup (nodup_oddOnes _) (hnodup.erase text)]
    intro t
    rw [hnodup.mem_erase_iff, mem_oddOnes_cons]
    by_cases ht : t = text
    · simp [ht, hmem]
    · simp [ht]
  · rw [List.perm_ext_iff_of_nodup (nodup_oddOnes _) (List.nodup_cons.mpr ⟨hmem, hnodup⟩)]
    intro t
    rw [List.mem_cons, mem_oddOnes_cons]
    by_cases ht : t = text
    · simp [ht, hmem]
    · simp [ht]

/-- Equal texts cancel in pairs. -/
theorem mix_oddOnes (texts : List String) : mix (oddOnes texts) = mix texts := by
  induction texts with
  | nil => rfl
  | cons text texts ih =>
    rw [mix_perm (oddOnes_cons_perm text texts), mix_cons, ← ih]
    split_ifs with hmem
    · rw [mix_perm (List.perm_cons_erase hmem), mix_cons, ← UInt32.xor_assoc, UInt32.xor_self,
        UInt32.zero_xor]
    · rfl

/-- Whether no two different texts have the same hash. -/
def Distinct (texts : List String) : Prop := ∀ t ∈ texts, ∀ t' ∈ texts, t ≠ t' → djb2 t ≠ djb2 t'

/-- Whether the hashes of no selection of the different texts cancel. Texts that are independent are
distinct, but not the other way round. -/
def Independent (texts : List String) : Prop :=
  ∀ part ∈ texts.dedup.sublists, part ≠ [] → mix part ≠ 0

instance (texts : List String) : Decidable (Distinct texts) :=
  inferInstanceAs (Decidable (∀ t ∈ texts, ∀ t' ∈ texts, t ≠ t' → djb2 t ≠ djb2 t'))

instance (texts : List String) : Decidable (Independent texts) :=
  inferInstanceAs (Decidable (∀ part ∈ texts.dedup.sublists, part ≠ [] → mix part ≠ 0))

/-- Hashes that are independent cancel in pairs of equal texts only. -/
theorem Independent.mix_eq_zero_iff (h : Independent texts) :
    mix texts = 0 ↔ oddOnes texts = [] := by
  rw [← mix_oddOnes]
  refine ⟨fun hmix => ?_, fun hodd => by rw [hodd, mix_nil]⟩
  by_contra hne
  have hsub : oddOnes texts ∈ texts.dedup.sublists := List.mem_sublists.mpr List.filter_sublist
  exact h _ hsub hne hmix

/-- Two hashes cancel if they are equal. -/
theorem Distinct.mix_ne_zero (h : Distinct texts) (hlength : (oddOnes texts).length = 2) :
    mix texts ≠ 0 := by
  obtain ⟨t, t', hodd⟩ := List.length_eq_two.mp hlength
  have hnodup := nodup_oddOnes texts
  have hmem : ∀ s ∈ oddOnes texts, s ∈ texts := by
    intro s hs
    exact List.mem_dedup.mp (List.mem_of_mem_filter hs)
  rw [hodd] at hnodup hmem
  have hne : t ≠ t' := by simpa using hnodup
  rw [← mix_oddOnes, hodd, mix_cons, mix_cons, mix_nil, UInt32.xor_zero]
  intro hxor
  refine h t (hmem t (by simp)) t' (hmem t' (by simp)) hne ?_
  have heq := congrArg (· ^^^ djb2 t') hxor
  simpa [UInt32.xor_assoc] using heq

end MetricId

/-! ## Two descriptions -/

namespace MetricSpec

variable {a b : MetricSpec}

/-- The namespace, the name and the tags of what is described. -/
def texts (spec : MetricSpec) : List String := spec.ns :: spec.name :: spec.tags.toList

/-- Whether the names and the description keep to the bounds; the tags always do. -/
def Accepted (spec : MetricSpec) : Prop :=
  checkNames spec.ns spec.name spec.description = .ok ()

theorem id_eq_iff_mix (a b : MetricSpec) :
    a.id = b.id ↔ MetricId.mix (a.texts ++ b.texts) = 0 := by
  have hval : ∀ spec : MetricSpec, spec.id = ⟨MetricId.mix spec.texts⟩ :=
    fun spec => congrArg MetricId.mk (MetricId.val_ofNames spec.ns spec.name spec.tags.toList)
  rw [hval, hval, MetricId.mk.injEq, MetricId.mix_append]
  exact UInt32.xor_eq_zero_iff.symm

theorem oddOnes_eq_nil_iff (a b : MetricSpec) :
    MetricId.oddOnes (a.texts ++ b.texts) = [] ↔
      ∀ t, a.texts.count t % 2 = b.texts.count t % 2 := by
  simp only [List.eq_nil_iff_forall_not_mem, MetricId.mem_oddOnes, List.count_append]
  refine forall_congr' fun t => ?_
  omega

end MetricSpec

namespace Registry

variable {r r' : Registry} {a b spec : MetricSpec} {m : Metric}

/-- Whether there is room for the samples of a metric. -/
def HasRoom (r : Registry) : Prop :=
  0 < r.capacity ∧ r.capacity * Sample.packedLength ≤ allocationLimit

/-- Whether two metrics can be created one after the other, and are then both found. -/
def SideBySide (r : Registry) (a b : MetricSpec) : Prop :=
  ∃ ma ra mb rb, r.create a = .ok (ma, ra) ∧ ra.create b = .ok (mb, rb) ∧
    rb.find? a.id = some ma ∧ rb.find? b.id = some mb

theorem create_eq_ok_iff :
    r.create spec = .ok (m, r') ↔ Metric.ofSpec spec r.capacity = .ok m ∧ r.insert m = .ok r' := by
  rw [create, Failure.bind_eq_ok_iff]
  constructor
  · rintro ⟨made, hmade, h⟩
    obtain ⟨added, hadded, heq⟩ := Failure.bind_eq_ok_iff.mp h
    cases heq
    exact ⟨hmade, hadded⟩
  · rintro ⟨hmade, hadded⟩
    exact ⟨m, hmade, Failure.bind_eq_ok_iff.mpr ⟨r', hadded, rfl⟩⟩

theorem capacity_insert (h : r.insert m = .ok r') : r'.capacity = r.capacity := by
  rw [Registry.insert] at h
  split_ifs at h
  cases h
  rfl

theorem IsMap.exists_insert_iff (h : r.IsMap) (m : Metric) :
    (∃ r', r.insert m = .ok r') ↔ ¬ r.Live m.id := by
  rw [← h.contains_iff, Registry.insert]
  split_ifs with hcontains <;> simp [hcontains]

/-- A metric is created if it is accepted, there is room, and its identity is free. -/
theorem IsMap.exists_create_iff (h : r.IsMap) (spec : MetricSpec) :
    (∃ m r', r.create spec = .ok (m, r')) ↔ spec.Accepted ∧ r.HasRoom ∧ ¬ r.Live spec.id := by
  have hid : ∀ m, Metric.ofSpec spec r.capacity = .ok m → m.id = spec.id := by
    intro m hmade
    obtain ⟨buffer, rfl⟩ := Metric.eq_of_ofSpec hmade
    rfl
  simp only [create_eq_ok_iff]
  constructor
  · rintro ⟨m, r', hmade, hadded⟩
    obtain ⟨hnames, hroom⟩ := Metric.exists_ofSpec_iff.mp ⟨m, hmade⟩
    exact ⟨hnames, hroom, hid m hmade ▸ h.not_live_of_insert hadded⟩
  · rintro ⟨hnames, hroom, hfree⟩
    obtain ⟨m, hmade⟩ := Metric.exists_ofSpec_iff.mpr ⟨hnames, hroom⟩
    rw [← hid m hmade] at hfree
    obtain ⟨r', hadded⟩ := (h.exists_insert_iff m).mpr hfree
    exact ⟨m, r', hmade, hadded⟩

/-- What creating a metric leaves of a registry. -/
theorem IsMap.create (h : r.IsMap) (hc : r.create spec = .ok (m, r')) :
    r'.IsMap ∧ r'.capacity = r.capacity ∧ m.id = spec.id ∧ r'.metrics.Perm (m :: r.metrics) := by
  obtain ⟨hmade, hadded⟩ := create_eq_ok_iff.mp hc
  obtain ⟨hmap, hperm⟩ := h.insert hadded
  obtain ⟨buffer, rfl⟩ := Metric.eq_of_ofSpec hmade
  exact ⟨hmap, capacity_insert hadded, rfl, hperm⟩

/-- Two metrics can be registered together if each can be registered alone and their identities
differ. -/
theorem IsMap.sideBySide_iff (h : r.IsMap) (a b : MetricSpec) :
    r.SideBySide a b ↔ (∃ m r', r.create a = .ok (m, r')) ∧ (∃ m r', r.create b = .ok (m, r')) ∧
      a.id ≠ b.id := by
  constructor
  · rintro ⟨ma, ra, mb, rb, hca, hcb, -, -⟩
    obtain ⟨hmap, hcapacity, hid, hperm⟩ := h.create hca
    obtain ⟨hnames, hroom, hfree⟩ := (hmap.exists_create_iff b).mp ⟨mb, rb, hcb⟩
    rw [live_of_perm_cons hperm, hid, not_or] at hfree
    rw [HasRoom, hcapacity] at hroom
    exact ⟨⟨ma, ra, hca⟩, (h.exists_create_iff b).mpr ⟨hnames, hroom, hfree.2⟩, hfree.1⟩
  · rintro ⟨⟨ma, ra, hca⟩, hb, hne⟩
    obtain ⟨hnames, hroom, hfree⟩ := (h.exists_create_iff b).mp hb
    obtain ⟨hmap, hcapacity, hid, hperm⟩ := h.create hca
    have hfree' : ¬ ra.Live b.id := by
      rw [live_of_perm_cons hperm, hid]
      exact not_or.mpr ⟨hne, hfree⟩
    rw [HasRoom, ← hcapacity] at hroom
    obtain ⟨mb, rb, hcb⟩ := (hmap.exists_create_iff b).mpr ⟨hnames, hroom, hfree'⟩
    obtain ⟨hmap', -, hid', hperm'⟩ := hmap.create hcb
    have hma : ma ∈ rb.metrics := hperm'.mem_iff.mpr (by simp [hperm.mem_iff])
    have hmb : mb ∈ rb.metrics := hperm'.mem_iff.mpr List.mem_cons_self
    refine ⟨ma, ra, mb, rb, hca, hcb, ?_, ?_⟩
    · rw [← hid, hmap'.find?_of_mem hma]
    · rw [← hid', hmap'.find?_of_mem hmb]

theorem IsMap.not_sideBySide (h : r.IsMap) (hid : a.id = b.id) : ¬ r.SideBySide a b := by
  rw [h.sideBySide_iff]
  exact fun hside => hside.2.2 hid

/-- Two metrics have the same identity exactly if the hashes of the texts that occur in them an odd
number of times cancel. After any operations two metrics can be registered together exactly if each
can be registered alone and their identities differ. -/
theorem performAll_sideBySide (capacity : Nat) (ops : List RegistryOperation) (a b : MetricSpec) :
    (a.id = b.id ↔ MetricId.mix (MetricId.oddOnes (a.texts ++ b.texts)) = 0) ∧
    (MetricId.Independent (a.texts ++ b.texts) →
      (a.id = b.id ↔ ∀ t, a.texts.count t % 2 = b.texts.count t % 2)) ∧
    (MetricId.Distinct (a.texts ++ b.texts) →
      (MetricId.oddOnes (a.texts ++ b.texts)).length = 2 → a.id ≠ b.id) ∧
    ∀ r, r = (RegistryOperation.performAll Registry.perform (empty capacity) ops).2 →
      (r.SideBySide a b ↔ a.Accepted ∧ b.Accepted ∧ r.HasRoom ∧ ¬ r.Live a.id ∧ ¬ r.Live b.id ∧
        a.id ≠ b.id) := by
  refine ⟨?_, fun h => ?_, fun h hlength => ?_, ?_⟩
  · rw [MetricSpec.id_eq_iff_mix, MetricId.mix_oddOnes]
  · rw [MetricSpec.id_eq_iff_mix, h.mix_eq_zero_iff, MetricSpec.oddOnes_eq_nil_iff]
  · rw [Ne, MetricSpec.id_eq_iff_mix]
    exact h.mix_ne_zero hlength
  · rintro r rfl
    have hmap := ((represents_empty capacity).performAll ops).2.isMap
    rw [hmap.sideBySide_iff, hmap.exists_create_iff, hmap.exists_create_iff]
    tauto

/-! ## Examples -/

/-- A gauge without tags. -/
def bareGauge (ns name : String) : MetricSpec := ⟨ns, name, .gauge, .empty, "", .null, none⟩

/-- One gauge in the east and one in the west. -/
theorem performAll_sideBySide_tags :
    let east := taggedGauge ⟨["east"], by decide⟩
    let west := taggedGauge ⟨["west"], by decide⟩
    MetricId.Independent (east.texts ++ west.texts) ∧
      MetricId.Distinct (east.texts ++ west.texts) ∧
      (east.id = west.id ↔ ∀ t, east.texts.count t % 2 = west.texts.count t % 2) ∧
      (empty 4).SideBySide east west := by
  intro east west
  have hindependent : MetricId.Independent (east.texts ++ west.texts) := by decide +kernel
  have hdistinct : MetricId.Distinct (east.texts ++ west.texts) := by decide +kernel
  have hlength : (MetricId.oddOnes (east.texts ++ west.texts)).length = 2 := by decide +kernel
  obtain ⟨-, hparity, hne, hside⟩ := performAll_sideBySide 4 [] east west
  refine ⟨hindependent, hdistinct, hparity hindependent, (hside (empty 4) rfl).mpr ?_⟩
  have hfree : ∀ id, ¬ (empty 4).Live id := by
    intro id
    rw [← (isMap_empty 4).contains_iff, (represents_empty 4).contains_iff]
    exact Finmap.notMem_empty
  exact ⟨rfl, rfl, ⟨by decide, by decide⟩, hfree _, hfree _, hne hdistinct hlength⟩

/-- Whether metrics that differ share an identity, and so a place in a registry, although no two of
their texts have the same hash. -/
structure Collides (a b : MetricSpec) : Prop where
  accepted : a.Accepted ∧ b.Accepted
  differ : a.ns ≠ b.ns ∧ a.name ≠ b.name
  distinct : MetricId.Distinct (a.texts ++ b.texts)
  id_eq : a.id = b.id
  apart : ¬ (empty 4).SideBySide a b

theorem Collides.of_id_eq (haccepted : a.Accepted ∧ b.Accepted)
    (hdiffer : a.ns ≠ b.ns ∧ a.name ≠ b.name) (hdistinct : MetricId.Distinct (a.texts ++ b.texts))
    (hid : a.id = b.id) : Collides a b :=
  ⟨haccepted, hdiffer, hdistinct, hid, (isMap_empty 4).not_sideBySide hid⟩

/-- A text that is both namespace and name cancels, namespace and name can be exchanged, and the
hashes of four texts may cancel. -/
theorem bareGauge_collides :
    Collides (bareGauge "a" "a") (bareGauge "b" "b") ∧
      Collides (bareGauge "a" "b") (bareGauge "b" "a") ∧
      Collides (bareGauge "a" "b") (bareGauge "c" "d") := by
  refine ⟨?doubled, ?exchanged, ?cancelling⟩
  case doubled => exact .of_id_eq ⟨rfl, rfl⟩ (by decide) (by decide +kernel) (by decide +kernel)
  case exchanged => exact .of_id_eq ⟨rfl, rfl⟩ (by decide) (by decide +kernel) (by decide +kernel)
  case cancelling => exact .of_id_eq ⟨rfl, rfl⟩ (by decide) (by decide +kernel) (by decide +kernel)

end Registry

end Telemetry
