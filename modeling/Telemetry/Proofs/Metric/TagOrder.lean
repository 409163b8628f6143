import Telemetry.Proofs.Metric.Made

/-!
# The order of tags

The identity of a metric takes its tags together by exclusive or, so they may be given in any order,
and the same tag may be given several times. A registry knows metrics by their identities alone:
whoever gives the tags of a registered metric in another order finds that metric and no other, and
cannot register it a second time.

## Main definitions

* `Metric.GoesBy`: some names are those of a metric, with its tags in any order.
* `Registry.IgnoresOrder`: what a registry makes of the tags of its metrics in another order.

## Main statements

* `MetricId.ofNames_replace_iff`: which tags can stand for each other.
* `Registry.performAll_ignoresOrder`: after any operations.
-/
namespace Telemetry

namespace MetricId

variable {ns name : String}

theorem val_ofNames_cons (tag : String) (tags : List String) :
    (ofNames ns name (tag :: tags)).val = (ofNames ns name tags).val ^^^ djb2 tag := by
  rw [ofNames_perm ns name (List.perm_append_singleton tag tags).symm]
  simp only [ofNames, List.foldl_append, List.foldl_cons, List.foldl_nil]

/-- A tag in the place of another one gives the same identity if their hashes agree. -/
theorem ofNames_replace_iff (front back : List String) (tag tag' : String) :
    ofNames ns name (front ++ tag :: back) = ofNames ns name (front ++ tag' :: back) ↔
      djb2 tag = djb2 tag' := by
  have hval : ∀ t, (ofNames ns name (front ++ t :: back)).val
      = (ofNames ns name (front ++ back)).val ^^^ djb2 t := by
    intro t
    rw [ofNames_perm ns name List.perm_middle, val_ofNames_cons]
  constructor
  · intro heq
    have hxor := congrArg MetricId.val heq
    rw [hval, hval] at hxor
    exact (UInt32.xor_right_inj _).mp hxor
  · intro hhash
    rw [MetricId.mk.injEq, hval, hval, hhash]

end MetricId

namespace Metric

variable {m : Metric} {ns name : String} {tags : List String}

/-- Whether some names are those of a metric, with its tags in any order. -/
def GoesBy (m : Metric) (ns name : String) (tags : List String) : Prop :=
  m.ns = ns ∧ m.name = name ∧ m.tags.toList.Perm tags

theorem GoesBy.ofNames_eq (h : m.GoesBy ns name tags) (hown : m.HasOwnId) :
    MetricId.ofNames ns name tags = m.id := by
  obtain ⟨rfl, rfl, htags⟩ := h
  rw [hown, MetricId.ofNames_perm m.ns m.name htags]

/-- A metric can be made once more under its names, if the description is not too long and there is
room for the samples of any metric. -/
theorem GoesBy.exists_ofSpec {spec : MetricSpec} {capacity : Nat}
    (h : m.GoesBy spec.ns spec.name spec.tags.toList) (hmade : m.IsMade)
    (hdescription : spec.description.utf8ByteSize ≤ maxDescriptionLength)
    (hroom : ∃ spec₀ made, ofSpec spec₀ capacity = .ok made) :
    ∃ made, ofSpec spec capacity = .ok made := by
  obtain ⟨hns, hname, -⟩ := h
  obtain ⟨spec₀, hroom⟩ := hroom
  obtain ⟨hempty, hempty', hlength, hlength', -⟩ := checkNames_eq_ok_iff.mp hmade.checkNames_eq
  rw [hns] at hempty hlength
  rw [hname] at hempty' hlength'
  have hnames := checkNames_eq_ok_iff.mpr ⟨hempty, hempty', hlength, hlength', hdescription⟩
  exact exists_ofSpec_iff.mpr ⟨hnames, (exists_ofSpec_iff.mp hroom).2⟩

end Metric

namespace Registry

variable {r : Registry} {m made : Metric} {spec : MetricSpec}

theorem IsMap.find?_of_mem (h : r.IsMap) (hm : m ∈ r.metrics) : r.find? m.id = some m := by
  obtain ⟨capacity, M, h⟩ := h
  obtain ⟨e, he, rfl⟩ := List.mem_map.mp hm
  obtain ⟨i, hi⟩ := mem_entries.mp he
  rw [h.find?_eq, (h.placed i e hi).2]
  exact h.mem_entries_iff.mp he

theorem IsMap.insert_of_live (h : r.IsMap) (hlive : r.Live m.id) :
    r.insert m = .error (taken m) := by
  rw [Registry.insert, if_pos ((h.contains_iff m.id).mpr hlive)]

/-- Of two metrics of one identity the second is made, and then it is not added. -/
theorem IsMap.create_of_live (h : r.IsMap) (hmade : Metric.ofSpec spec r.capacity = .ok made)
    (hlive : r.Live spec.id) : r.create spec = .error (taken made) := by
  have hid : made.id = spec.id := by
    obtain ⟨buffer, rfl⟩ := Metric.eq_of_ofSpec hmade
    rfl
  simp only [create, hmade, bind, Except.bind, h.insert_of_live (hid ▸ hlive)]

/-- What a registry makes of the names of its metrics with the tags in any order. -/
structure IgnoresOrder (r : Registry) : Prop where
  /-- Looked up by them, a metric is found as it is now. -/
  found : ∀ m ∈ r.metrics, ∀ ns name tags, m.GoesBy ns name tags →
    r.findByName? ns name tags = some m
  /-- No metric is created under them, and nothing changes. -/
  unchanged : ∀ m ∈ r.metrics, ∀ spec : MetricSpec, m.GoesBy spec.ns spec.name spec.tags.toList →
    ∃ failure, r.perform (.create spec) = (.metric (.error failure), r)
  /-- The reason is that the identity is taken, as long as metrics can be made here at all. The
  failure names the tags in the order in which they were given this time. -/
  metricExists : ∀ m ∈ r.metrics, ∀ spec : MetricSpec,
    m.GoesBy spec.ns spec.name spec.tags.toList →
    spec.description.utf8ByteSize ≤ maxDescriptionLength →
    (∃ spec₀ made, Metric.ofSpec spec₀ r.capacity = .ok made) →
    r.create spec = .error (.metricExists
      (Key.stringify spec.ns spec.name spec.tags.toList ++ " (" ++ m.id.hex ++ ")"))
  /-- Nor is a metric added that was made under them elsewhere. -/
  not_added : ∀ m ∈ r.metrics, ∀ made : Metric, made.IsMade →
    m.GoesBy made.ns made.name made.tags.toList →
    r.perform (.insert made) = (.done (.error (taken made)), r)

theorem IsMap.ignoresOrder (h : r.IsMap) (hmade : r.All Metric.IsMade) : IgnoresOrder r := by
  have hid : ∀ m ∈ r.metrics, ∀ ns name tags, m.GoesBy ns name tags →
      MetricId.ofNames ns name tags = m.id := fun m hm ns name tags hnames =>
    hnames.ofNames_eq (hmade.of_mem_metrics hm).hasOwnId
  have hlive : ∀ m ∈ r.metrics, ∀ spec : MetricSpec,
      m.GoesBy spec.ns spec.name spec.tags.toList → r.Live spec.id := fun m hm spec hnames =>
    ⟨m, hm, (hid m hm _ _ _ hnames).symm⟩
  constructor
  case found =>
    intro m hm ns name tags hnames
    rw [findByName?, hid m hm ns name tags hnames]
    exact h.find?_of_mem hm
  case unchanged =>
    intro m hm spec hnames
    rw [Registry.perform]
    cases hspec : Metric.ofSpec spec r.capacity with
    | error failure =>
      refine ⟨failure, ?_⟩
      simp only [create, hspec, bind, Except.bind]
    | ok made =>
      refine ⟨taken made, ?_⟩
      rw [h.create_of_live hspec (hlive m hm spec hnames)]
  case metricExists =>
    intro m hm spec hnames hdescription hroom
    obtain ⟨made, hspec⟩ := hnames.exists_ofSpec (hmade.of_mem_metrics hm) hdescription hroom
    rw [h.create_of_live hspec (hlive m hm spec hnames), ← hid m hm _ _ _ hnames]
    obtain ⟨buffer, rfl⟩ := Metric.eq_of_ofSpec hspec
    rfl
  case not_added =>
    intro m hm made hspec hnames
    have htaken : r.Live made.id := by
      rw [hspec.hasOwnId]
      exact ⟨m, hm, (hid m hm _ _ _ hnames).symm⟩
    rw [Registry.perform, h.insert_of_live htaken]

/-- After any operations the order of tags makes no difference to a registry, because it makes none
to identities. -/
theorem performAll_ignoresOrder (capacity : Nat) {ops : List RegistryOperation}
    (hops : ∀ m : Metric, .insert m ∈ ops → m.IsMade) :
    (∀ ns name tags tags', tags.Perm tags' →
      MetricId.ofNames ns name tags = MetricId.ofNames ns name tags') ∧
    (∀ ns name front back tag tag', MetricId.ofNames ns name (front ++ tag :: back)
        = MetricId.ofNames ns name (front ++ tag' :: back) ↔ djb2 tag = djb2 tag') ∧
    IgnoresOrder (RegistryOperation.performAll Registry.perform (empty capacity) ops).2 := by
  have hmap := ((represents_empty capacity).performAll ops).2.isMap
  have hmade := (all_empty capacity).performAll_of_made
    (fun _ _ _ => Metric.isMade_of_ofSpec) (fun _ b hm => hm.withBuffer b) hops
  exact ⟨fun ns name _ _ => MetricId.ofNames_perm ns name,
    fun ns name front back tag tag' => MetricId.ofNames_replace_iff front back tag tag',
    hmap.ignoresOrder hmade⟩

/-! ## Example -/

/-- A gauge with some tags. -/
def taggedGauge (tags : TagList) : MetricSpec := ⟨"room", "warmth", .gauge, tags, "", .avg, none⟩

/-- A registry with one gauge, in which one value is recorded. -/
def tagged : Registry :=
  let spec := taggedGauge ⟨["east", "first"], by decide⟩
  (RegistryOperation.performAll Registry.perform (empty 4)
    [.create spec, .update spec.id ⟨0⟩ ⟨0⟩ 7]).2

theorem performAll_ignoresOrder_swapped :
    IgnoresOrder tagged ∧
      (tagged.findByName? "room" "warmth" ["first", "east"]).map (fun m => m.buffer.window)
        = some [⟨⟨0⟩, ⟨0⟩, 7⟩] ∧
      ((tagged.create (taggedGauge ⟨["first", "east"], by decide⟩)).map fun _ => ())
        = .error (.metricExists "room_warmth_first_east (2bebbd25)") := by
  refine ⟨(performAll_ignoresOrder 4 ?_).2.2, ?_⟩
  · simp
  · decide +kernel

end Registry

end Telemetry
