import Telemetry.Proofs.Resp.RoundTrip
import Mathlib

/-!
# Narrower limits

The limits of a reader never change what it makes of an input. They only decide whether it takes the
value that is there, and that can be told from the value alone: from how deep arrays nest in it, and
from the lengths of the arrays and byte strings in it. So of two readers the one with the narrower
limits reads what the other one reads, or nothing.

## Main definitions

* `Value.depth`, `Value.parts`: how deep arrays nest in a value, and what is in it.
* `Limits.Respects`: whether a value keeps to the limits.

## Main statements

* `Value.spells_of_admits`: a spelling does not depend on the limits that admit the value.
* `Value.parse_narrow_iff`: narrower limits only filter.
-/
namespace Telemetry.Resp

namespace Value

/-- How deep arrays nest in a value. An array without elements counts, and so does a missing one. -/
def depth : Value → Nat
  | .array items => (items.map depth).foldr max 0 + 1
  | .nilArray => 1
  | .simple _ | .error _ | .integer _ | .bulk _ | .nilBulk => 0

/-- A value and everything in it. -/
def parts : Value → List Value
  | .array items => .array items :: items.flatMap parts
  | v => [v]

/-- Whether a value that is a line holds no carriage return. -/
def HoldsLine : Value → Prop
  | .simple t | .error t => 13 ∉ Bytes.ofText t
  | .integer _ | .bulk _ | .nilBulk | .array _ | .nilArray => True

theorem forall_mem_parts_array {items : List Value} {P : Value → Prop} :
    (∀ u ∈ (array items).parts, P u) ↔ P (array items) ∧ ∀ item ∈ items, ∀ u ∈ item.parts, P u := by
  rw [parts, List.forall_mem_cons, List.forall_mem_flatMap]

theorem depth_array_le_iff {items : List Value} {levels : Nat} :
    (array items).depth ≤ levels + 1 ↔ ∀ item ∈ items, item.depth ≤ levels := by
  rw [depth, Nat.add_le_add_iff_right]
  induction items with
  | nil => simp
  | cons item items ih => simp [ih]

end Value

namespace Limits

/-- Whether a byte string or an array is no longer than allowed. -/
def Bounds (limits : Limits) : Value → Prop
  | .bulk data => data.length ≤ limits.maxBulk
  | .array items => items.length ≤ limits.maxArray
  | .simple _ | .error _ | .integer _ | .nilBulk | .nilArray => True

/-- Whether a value keeps to the limits: arrays nest at most as deep as allowed, and every byte
string and every array in it keeps to its bound. -/
structure Respects (limits : Limits) (v : Value) : Prop where
  depth : v.depth ≤ limits.maxDepth
  bulks : ∀ data, .bulk data ∈ v.parts → data.length ≤ limits.maxBulk
  arrays : ∀ items, .array items ∈ v.parts → items.length ≤ limits.maxArray

/-- Whether some limits allow nothing that others forbid. -/
structure Narrower (narrow wide : Limits) : Prop where
  depth : narrow.maxDepth ≤ wide.maxDepth
  arrays : narrow.maxArray ≤ wide.maxArray
  bulks : narrow.maxBulk ≤ wide.maxBulk

variable {limits narrow wide : Limits} {levels : Nat} {v : Value}

theorem request_narrower_peer : request.Narrower peer := ⟨by decide, by decide, by decide⟩

theorem Narrower.refl (limits : Limits) : limits.Narrower limits := ⟨le_rfl, le_rfl, le_rfl⟩

/-- What is admitted can be told from the depth of a value and from each of its parts. -/
theorem admits_iff : limits.admits levels v = true ↔
    v.depth ≤ levels ∧ ∀ u ∈ v.parts, limits.Bounds u ∧ u.HoldsLine := by
  induction levels using Nat.strong_induction_on generalizing v with
  | _ levels ih =>
  cases v with
  | simple t | error t => simp [admits, Value.depth, Value.parts, Bounds, Value.HoldsLine]
  | integer n | nilBulk | nilArray | bulk data =>
    simp [admits, Value.depth, Value.parts, Bounds, Value.HoldsLine, Nat.succ_le_iff]
  | array items =>
    cases levels with
    | zero => simp [admits, Value.depth]
    | succ levels =>
      rw [admits, Bool.and_eq_true, decide_eq_true_eq, List.all_eq_true,
        Value.depth_array_le_iff, Value.forall_mem_parts_array]
      simp only [ih levels (Nat.lt_succ_self _), Bounds, Value.HoldsLine, and_true]
      constructor
      · rintro ⟨hlength, hitems⟩
        exact ⟨fun item hm => (hitems item hm).1, hlength, fun item hm => (hitems item hm).2⟩
      · rintro ⟨hdepth, hlength, hparts⟩
        exact ⟨hlength, fun item hm => ⟨hdepth item hm, hparts item hm⟩⟩

/-- Of the values that respect the limits, those with whole lines only are admitted. -/
theorem admits_iff_respects :
    limits.Admits v ↔ limits.Respects v ∧ ∀ u ∈ v.parts, u.HoldsLine := by
  rw [Admits, admits_iff]
  constructor
  · rintro ⟨hdepth, hparts⟩
    refine ⟨⟨hdepth, ?_, ?_⟩, fun u hu => (hparts u hu).2⟩
    · exact fun data hm => (hparts _ hm).1
    · exact fun items hm => (hparts _ hm).1
  · rintro ⟨hrespects, hlines⟩
    refine ⟨hrespects.depth, fun u hu => ⟨?_, hlines u hu⟩⟩
    cases u with
    | bulk data => exact hrespects.bulks data hu
    | array items => exact hrespects.arrays items hu
    | simple t | error t | integer n | nilBulk | nilArray => trivial

theorem Respects.mono (h : narrow.Respects v) (hle : narrow.Narrower wide) : wide.Respects v where
  depth := h.depth.trans hle.depth
  bulks data hm := (h.bulks data hm).trans hle.bulks
  arrays items hm := (h.arrays items hm).trans hle.arrays

end Limits

namespace Value

variable {limits narrow wide : Limits} {levels allowed : Nat} {v : Value} {input used rest : Bytes}

/-- A spelling of a value spells it under all limits that admit the value. -/
theorem spells_of_admits (hs : Spells wide levels v used) (ha : narrow.admits allowed v = true) :
    Spells narrow allowed v used := by
  induction levels using Nat.strong_induction_on generalizing allowed v used with
  | _ levels ih =>
  cases v with
  | simple t | error t | integer n | nilBulk =>
    rw [Spells] at hs ⊢
    exact hs
  | bulk data =>
    rw [Limits.admits, decide_eq_true_eq] at ha
    rw [Spells] at hs ⊢
    obtain ⟨line, n, hn, hlength, -, hused⟩ := hs
    exact ⟨line, n, hn, hlength, ha, hused⟩
  | nilArray =>
    rw [Limits.admits, decide_eq_true_eq] at ha
    rw [Spells] at hs ⊢
    exact ⟨ha, hs.2⟩
  | array items =>
    cases levels with
    | zero => rw [Spells] at hs; exact hs.elim
    | succ levels =>
      cases allowed with
      | zero => rw [Limits.admits] at ha; cases ha
      | succ allowed =>
        rw [Limits.admits, Bool.and_eq_true, decide_eq_true_eq, List.all_eq_true] at ha
        rw [Spells] at hs ⊢
        obtain ⟨line, n, parts, hn, hlength, -, hparts, hused⟩ := hs
        refine ⟨line, n, parts, hn, hlength, ha.1, ?_, hused⟩
        rw [List.forall₂_iff_get] at hparts ⊢
        refine ⟨hparts.1, fun i hi hj => ?_⟩
        exact ih levels (Nat.lt_succ_self _) (hparts.2 i hi hj) (ha.2 _ (List.get_mem ..))

/-- What one reader reads, another one reads if its limits admit the value. -/
theorem parse_of_admits (h : parse wide input = .value v rest) (ha : narrow.Admits v) :
    parse narrow input = .value v rest := by
  obtain ⟨used, hs, rfl⟩ := parse_eq_value_iff.mp h
  exact parse_eq_value_iff.mpr ⟨used, spells_of_admits hs ha, rfl⟩

theorem admits_of_parse (h : parse limits input = .value v rest) : limits.Admits v := by
  obtain ⟨used, hs, -⟩ := parse_eq_value_iff.mp h
  exact (admits_of_spells hs).1

/-- Limits only filter. -/
theorem parse_eq_value_iff_of_narrower (hle : narrow.Narrower wide) :
    parse narrow input = .value v rest ↔
      parse wide input = .value v rest ∧ narrow.Respects v := by
  constructor
  · intro h
    obtain ⟨hrespects, hlines⟩ := Limits.admits_iff_respects.mp (admits_of_parse h)
    have hwide : wide.Admits v := Limits.admits_iff_respects.mpr ⟨hrespects.mono hle, hlines⟩
    exact ⟨parse_of_admits h hwide, hrespects⟩
  · rintro ⟨h, hrespects⟩
    have hlines := (Limits.admits_iff_respects.mp (admits_of_parse h)).2
    exact parse_of_admits h (Limits.admits_iff_respects.mpr ⟨hrespects, hlines⟩)

/-- A reader with narrower limits reads a value if and only if a reader with wider ones reads it,
with the same rest behind it, and the value respects the narrower limits. In particular requests are
read as any peer would read them, and nothing is ever read that does not respect the limits. -/
theorem parse_narrow_iff :
    (∀ narrow wide : Limits, narrow.Narrower wide → ∀ input v rest,
      parse narrow input = .value v rest ↔
        parse wide input = .value v rest ∧ narrow.Respects v) ∧
    (∀ input v rest, parse .request input = .value v rest → parse .peer input = .value v rest) ∧
    ∀ limits input v rest, parse limits input = .value v rest → limits.Respects v := by
  refine ⟨?_, ?_, ?_⟩
  · exact fun _ _ hle _ _ _ => parse_eq_value_iff_of_narrower hle
  · exact fun _ _ _ h => ((parse_eq_value_iff_of_narrower Limits.request_narrower_peer).mp h).1
  · exact fun limits _ _ _ h => ((parse_eq_value_iff_of_narrower (.refl limits)).mp h).2

/-- An array with a missing array in it nests two deep: it is read if that is allowed, and otherwise
not. A byte string in it that is just as long as allowed is read. -/
theorem parse_narrow_iff_nested :
    parse ⟨2, 2, 3, 0⟩ (Bytes.ofText "*+2\r\n$03\r\nabc\r\n*-1\r\n:") =
        .value (array [bulk [97, 98, 99], nilArray]) [58] ∧
      ∀ v rest, parse ⟨1, 2, 3, 0⟩ (Bytes.ofText "*+2\r\n$03\r\nabc\r\n*-1\r\n:") ≠
        .value v rest := by
  have hpeer : parse .peer (Bytes.ofText "*+2\r\n$03\r\nabc\r\n*-1\r\n:")
      = .value (array [bulk [97, 98, 99], nilArray]) [58] := rfl
  constructor
  · refine (parse_narrow_iff.1 _ .peer ⟨by decide, by decide, by decide⟩ _ _ _).mpr ⟨hpeer, ?_⟩
    exact ⟨by simp [depth], by simp [parts], by simp [parts]⟩
  · intro v rest h
    obtain ⟨hv, hrespects⟩ :=
      (parse_narrow_iff.1 _ .peer ⟨by decide, by decide, by decide⟩ _ _ _).mp h
    rw [hpeer] at hv
    cases hv
    have hdepth := hrespects.depth
    simp [depth] at hdepth

end Value

end Telemetry.Resp
