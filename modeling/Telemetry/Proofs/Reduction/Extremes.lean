import Telemetry.Proofs.Metric.History
import Telemetry.Reduction.Value
import Mathlib

/-!
# Extremes of a window

The extremes of a counter are read off at the ends of its window, those of a gauge are searched for.
As a counter refuses what is below its last value, its window is in order, and then a search finds
nothing beyond the ends. What it finds may differ from them in the sign of a zero, as the order of the
numbers does not tell the two zeros apart.

## Main definitions

* `Statistics.IsExtreme`: one of some numbers that none of them is beyond.

## Main statements

* `Statistics.Chooses.isExtreme_foldl`: what a search finds is extreme.
* `Statistics.exists_min?`, `Statistics.exists_max?`: so is what a reduction takes.
* `SampleBuffer.extremes_performAll`: the extremes of what a counter recorded.
-/
namespace Telemetry

namespace Statistics

/-- One of some numbers that is at most each of them in an order: in the order of the numbers this is
the least, in the opposite order the greatest. -/
structure IsExtreme (le : Double → Double → Bool) (numbers : List Double) (x : Double) : Prop where
  mem : x ∈ numbers
  le : ∀ v ∈ numbers, le x v = true

/-- A choice of the one of two numbers that is at most the other in an order. NaN is not chosen. -/
structure Chooses (le : Double → Double → Bool) (choose : Double → Double → Double) : Prop where
  trans : ∀ {x y z}, le x y = true → le y z = true → le x z = true
  eq : ∀ {x y}, le x y = true → le y x = true → x.eq y = true
  eq_or_eq : ∀ x y, choose x y = x ∨ choose x y = y
  left : ∀ {x y}, x.isNaN = false → y.isNaN = false → le (choose x y) x = true
  right : ∀ {x y}, x.isNaN = false → y.isNaN = false → le (choose x y) y = true
  of_isNaN : ∀ {x y}, x.isNaN = false → y.isNaN = true → choose x y = x

variable {le : Double → Double → Bool} {choose : Double → Double → Double} {kind : Kind}
  {numbers rest : List Double} {window : List Sample} {x y : Double}

theorem chooses_min : Chooses Double.le Double.min where
  trans := Double.le_trans
  eq := Double.eq_of_le_of_le
  eq_or_eq x y := by
    unfold Double.min
    split_ifs <;> simp
  left {x y} hx hy := by
    rw [Double.min, hx, hy]
    cases hlt : y.lt x with
    | true => exact Double.le_of_lt hlt
    | false => exact Double.le_refl hx
  right {x y} hx hy := by
    rw [Double.min, hx, hy]
    cases hlt : y.lt x with
    | true => exact Double.le_refl hy
    | false => exact (Double.not_lt_iff hx hy).mp hlt
  of_isNaN {x y} hx hy := by
    rw [Double.min, hx, hy]
    rfl

theorem chooses_max : Chooses (flip Double.le) Double.max where
  trans hxy hyz := Double.le_trans hyz hxy
  eq hxy hyx := Double.eq_of_le_of_le hyx hxy
  eq_or_eq x y := by
    unfold Double.max
    split_ifs <;> simp
  left {x y} hx hy := by
    rw [Double.max, hx, hy]
    cases hlt : x.lt y with
    | true => exact Double.le_of_lt hlt
    | false => exact Double.le_refl hx
  right {x y} hx hy := by
    rw [Double.max, hx, hy]
    cases hlt : x.lt y with
    | true => exact Double.le_refl hy
    | false => exact (Double.not_lt_iff hy hx).mp hlt
  of_isNaN {x y} hx hy := by
    rw [Double.max, hx, hy]
    rfl

namespace Chooses

theorem refl (h : Chooses le choose) (hx : x.isNaN = false) : le x x = true := by
  have hself : choose x x = x := (h.eq_or_eq x x).elim id id
  simpa only [hself] using h.left hx hx

theorem isNaN_choose (h : Chooses le choose) (hx : x.isNaN = false) (hy : y.isNaN = false) :
    (choose x y).isNaN = false := by
  rcases h.eq_or_eq x y with heq | heq
  · rwa [heq]
  · rwa [heq]

/-- What is chosen again and again is extreme among all that it was chosen from. -/
theorem isExtreme_foldl (h : Chooses le choose) (hx : x.isNaN = false)
    (hrest : ∀ v ∈ rest, v.isNaN = false) : IsExtreme le (x :: rest) (rest.foldl choose x) := by
  induction rest generalizing x with
  | nil => exact ⟨List.mem_singleton.mpr rfl, by simpa using h.refl hx⟩
  | cons y rest ih =>
    obtain ⟨hy, hrest⟩ := List.forall_mem_cons.mp hrest
    obtain ⟨hmem, hall⟩ := ih (h.isNaN_choose hx hy) hrest
    obtain ⟨hchosen, hbehind⟩ := List.forall_mem_cons.mp hall
    refine ⟨?_, ?_⟩
    · rcases List.mem_cons.mp hmem with hfound | hfound
      · rw [List.foldl_cons, hfound]
        rcases h.eq_or_eq x y with heq | heq <;> simp [heq]
      · simp [hfound]
    · rw [List.forall_mem_cons, List.forall_mem_cons]
      exact ⟨h.trans hchosen (h.left hx hy), h.trans hchosen (h.right hx hy), hbehind⟩

/-- A search that begins with a number passes over NaN. -/
theorem foldl_eq_filter (h : Chooses le choose) (hx : x.isNaN = false) :
    rest.foldl choose x = (rest.filter fun v => !v.isNaN).foldl choose x := by
  induction rest generalizing x with
  | nil => rfl
  | cons y rest ih =>
    rw [List.foldl_cons]
    cases hy : y.isNaN with
    | true => simp [hy, h.of_isNaN hx hy, ih hx]
    | false => simp [hy, ih (h.isNaN_choose hx hy)]

/-- Two extremes are equal, though they may be different zeros. -/
theorem eq_of_isExtreme (h : Chooses le choose) (hx : IsExtreme le numbers x)
    (hy : IsExtreme le numbers y) : x.eq y = true :=
  h.eq (hx.le y hy.mem) (hy.le x hx.mem)

end Chooses

/-! ## Windows -/

/-- Whether the values of a window are numbers, and in order if their extremes are taken at its
ends. -/
structure IsOrdered (kind : Kind) (window : List Sample) : Prop where
  isNumber : ∀ s ∈ window, s.value.isNaN = false
  inOrder : kind.isMonotonic = true → window.Pairwise fun s t => s.value.le t.value = true

theorem exists_min? (h : IsOrdered kind window) (hne : window ≠ []) :
    ∃ x, min? kind window = some x ∧ IsExtreme Double.le (values window) x := by
  obtain ⟨s, rest, rfl⟩ := List.exists_cons_of_ne_nil hne
  obtain ⟨hs, hrest⟩ := List.forall_mem_cons.mp h.isNumber
  cases hkind : kind.isMonotonic with
  | true =>
    have hbehind := (List.pairwise_cons.mp (h.inOrder hkind)).1
    refine ⟨s.value, by simp [min?, hkind], by simp [values], ?_⟩
    simpa [values, Double.le_refl hs] using hbehind
  | false =>
    exact ⟨(values rest).foldl Double.min s.value, by simp [min?, hkind, least?, values],
      chooses_min.isExtreme_foldl hs (List.forall_mem_map.mpr hrest)⟩

theorem exists_max? (h : IsOrdered kind window) (hne : window ≠ []) :
    ∃ x, max? kind window = some x ∧ IsExtreme (flip Double.le) (values window) x := by
  cases hkind : kind.isMonotonic with
  | true =>
    obtain ⟨front, s, rfl⟩ := (List.eq_nil_or_concat' window).resolve_left hne
    have hfront := (List.pairwise_append.mp (h.inOrder hkind)).2.2
    have hs : s.value.le s.value = true := Double.le_refl (h.isNumber s (by simp))
    refine ⟨s.value, by simp [max?, hkind], by simp [values], ?_⟩
    simp only [values, List.forall_mem_map, List.forall_mem_append, List.forall_mem_singleton, flip]
    exact ⟨fun t ht => hfront t ht s (by simp), hs⟩
  | false =>
    obtain ⟨s, rest, rfl⟩ := List.exists_cons_of_ne_nil hne
    obtain ⟨hs, hrest⟩ := List.forall_mem_cons.mp h.isNumber
    exact ⟨(values rest).foldl Double.max s.value, by simp [max?, hkind, greatest?, values],
      chooses_max.isExtreme_foldl hs (List.forall_mem_map.mpr hrest)⟩

end Statistics

theorem ReducedValue.ofWindow_min (kind : Kind) {window : List Sample} (hne : window ≠ []) :
    ofWindow .min kind window = (Statistics.min? kind window).map .scalar := by
  rw [ofWindow, if_neg (mt List.isEmpty_iff.mp hne)]

theorem ReducedValue.ofWindow_max (kind : Kind) {window : List Sample} (hne : window ≠ []) :
    ofWindow .max kind window = (Statistics.max? kind window).map .scalar := by
  rw [ofWindow, if_neg (mt List.isEmpty_iff.mp hne)]

namespace SampleBuffer

open Statistics

variable {b : SampleBuffer}

/-- The buffer has an extreme value in an order, which the reduction takes, and a search through the
window finds an equal one. -/
structure HasExtreme (b : SampleBuffer) (op : Operator)
    (extreme? : Kind → List Sample → Option Double) (le : Double → Double → Bool) (x : Double) :
    Prop where
  isExtreme : IsExtreme le (values b.window) x
  taken : extreme? b.kind b.window = some x
  found : ∃ y, extreme? .gauge b.window = some y ∧ x.eq y = true
  reduced : ReducedValue.ofWindow op b.kind b.window = some (.scalar x)

theorem InOrder.isOrdered (h : b.InOrder) (hkind : b.kind = .counter) (kind : Kind) :
    IsOrdered kind b.window where
  isNumber := h.isNumber (by rw [hkind]; decide)
  inOrder _ := h.counter hkind

/-- Both extremes are taken in the same way, so what is needed of the one that is taken stands in the
hypotheses. -/
theorem InOrder.exists_hasExtreme {op : Operator} {extreme? : Kind → List Sample → Option Double}
    {le : Double → Double → Bool} {choose : Double → Double → Double} (hchooses : Chooses le choose)
    (hextreme : ∀ {kind window}, IsOrdered kind window → window ≠ [] →
      ∃ x, extreme? kind window = some x ∧ IsExtreme le (values window) x)
    (hreduce : ∀ kind {window}, window ≠ [] →
      ReducedValue.ofWindow op kind window = (extreme? kind window).map .scalar)
    (h : b.InOrder) (hkind : b.kind = .counter) (hne : b.window ≠ []) :
    ∃ x, b.HasExtreme op extreme? le x := by
  obtain ⟨x, htaken, hx⟩ := hextreme (h.isOrdered hkind b.kind) hne
  obtain ⟨y, hfound, hy⟩ := hextreme (h.isOrdered hkind .gauge) hne
  refine ⟨x, hx, htaken, ⟨y, hfound, hchooses.eq_of_isExtreme hx hy⟩, ?_⟩
  rw [hreduce b.kind hne, htaken, Option.map_some]

/-- The first and the last value of a counter are the least and the greatest of all that it recorded,
whatever it was given and refused, and what a search through its window finds. -/
theorem extremes_performAll {capacity : Nat} {b : SampleBuffer}
    (hb : ofCapacity .counter capacity = .ok b) (attempts : List Attempt)
    (hne : (b.performAll attempts).2.window ≠ []) :
    (b.performAll attempts).2.kind = .counter ∧
      (b.performAll attempts).2.window = (b.performAll attempts).1.filterMap Except.toOption ∧
      (∃ x, (b.performAll attempts).2.HasExtreme .min min? Double.le x) ∧
      ∃ x, (b.performAll attempts).2.HasExtreme .max max? (flip Double.le) x := by
  obtain ⟨hkind, -, hempty, -⟩ := new_of_ofCapacity hb
  have hstart : b.InOrder := by
    refine ⟨fun _ => ?_, fun _ => ?_, fun _ => ?_⟩ <;> simp [hempty]
  obtain ⟨horder, hcounter⟩ := performAll_keeps (P := fun b' => b'.InOrder ∧ b'.kind = .counter)
    (fun _ _ _ hc hok => ⟨hc.1.perform hok, (extended_of_perform hok).kind.trans hc.2⟩)
    ⟨hstart, hkind⟩ attempts
  refine ⟨hcounter, ?_,
    horder.exists_hasExtreme chooses_min exists_min? ReducedValue.ofWindow_min hcounter hne,
    horder.exists_hasExtreme chooses_max exists_max? ReducedValue.ofWindow_max hcounter hne⟩
  rw [window_performAll, hempty, List.nil_append]

/-- A counter is given minus infinity, both zeros with something below them in between, NaN, and a
number for which there is no room. -/
def signedZeros : List Attempt :=
  [.append .negativeInfinity .zero 7, .append .negativeZero .zero 7,
    .append ⟨0xBFF0000000000000⟩ .zero 8, .append .zero .zero 8, .append .nan .zero 8,
    .append ⟨0x3FF0000000000000⟩ .zero 7]

/-- The last value is zero, and the search finds the zero with a minus sign. -/
theorem extremes_performAll_signedZeros :
    ∃ b, ofCapacity .counter 3 = .ok b ∧ (b.performAll signedZeros).2.window ≠ [] ∧
      (b.performAll signedZeros).2.HasExtreme .min min? Double.le .negativeInfinity ∧
      (b.performAll signedZeros).2.HasExtreme .max max? (flip Double.le) .zero ∧
      max? .gauge (b.performAll signedZeros).2.window = some .negativeZero := by
  have hne : (performAll ⟨.counter, 3, #[], by decide, by decide⟩ signedZeros).2.window ≠ [] := by
    decide +kernel
  obtain ⟨-, -, ⟨lo, hlo⟩, ⟨hi, hhi⟩⟩ := @extremes_performAll 3 _ rfl signedZeros hne
  obtain rfl : lo = .negativeInfinity := Option.some.inj (hlo.taken.symm.trans (by decide +kernel))
  obtain rfl : hi = .zero := Option.some.inj (hhi.taken.symm.trans (by decide +kernel))
  exact ⟨_, rfl, hne, hlo, hhi, by decide +kernel⟩

end SampleBuffer

end Telemetry
