import Telemetry.Number.Double
import Mathlib

/-!
# Order of the numbers

Patterns that stand for numbers are ordered like their places in a linear order: first by the side
of zero, then by exponent and mantissa. Both zeros have the same place, and NaN has none.
-/
namespace Telemetry.Double

open Float.Model (UnpackedFloat)

variable {x y z : Double}

/-- Order or equality of the numbers; NaN is not even at most itself. -/
def le (x y : Double) : Bool := x.toFloat ≤ y.toFloat

/-! ## Places -/

/-- A place among the numbers: the side of zero, the exponent, the mantissa. -/
abbrev Place := ℤ ×ₗ ℤ ×ₗ ℤ

/-- The place with the given parts. -/
def placeOf (side exponent mantissa : ℤ) : Place := toLex (side, toLex (exponent, mantissa))

/-- The place of an unpacked number. On the negative side a greater magnitude is a lower place. -/
def unpackedPlace? : UnpackedFloat → Option Place
  | .notANumber => none
  | .infinity .positive => some (placeOf 2 0 0)
  | .infinity .negative => some (placeOf (-2) 0 0)
  | .zero _ => some (placeOf 0 0 0)
  | .finite .positive m e _ => some (placeOf 1 e m)
  | .finite .negative m e _ => some (placeOf (-1) (-e) (-m))

/-- The place of a number; NaN has none. -/
def place? (x : Double) : Option Place := unpackedPlace? x.toFloat.toModel.unpack

theorem compare_placeOf (side e m f n : ℤ) :
    compare (placeOf side e m) (placeOf side f n) = (compare e f).then (compare m n) := by
  simp [placeOf, Prod.Lex.compare_def, compareLex, compareOn]

theorem compare_neg_neg (a b : ℤ) : compare (-a) (-b) = (compare a b).swap := by
  have hanti : StrictAnti fun a : ℤ => -a := fun _ _ h => neg_lt_neg h
  rw [← cmp_eq_compare, ← cmp_eq_compare, cmp_swap]
  exact hanti.cmp_map_eq a b

theorem compare_natCast (m n : ℕ) : compare (m : ℤ) n = compare m n := by
  rw [← cmp_eq_compare, ← cmp_eq_compare, Nat.strictMono_cast.cmp_map_eq]

/-- Unpacked numbers compare like their places. -/
theorem compare_unpacked (x y : UnpackedFloat) :
    x.compare y = (unpackedPlace? x).bind fun a => (unpackedPlace? y).map (compare a) := by
  -- Only two numbers on the same side of zero are compared by exponent and mantissa.
  rcases x with ⟨_ | _⟩ | _ | _ | ⟨_ | _, m, e, hm⟩ <;>
    rcases y with ⟨_ | _⟩ | _ | _ | ⟨_ | _, n, f, hn⟩ <;> try rfl
  · show some ((compare e f).then (compare m n)).swap = some _
    rw [compare_placeOf, compare_neg_neg, compare_neg_neg, compare_natCast, Ordering.swap_then]
  · show some ((compare e f).then (compare m n)) = some _
    rw [compare_placeOf, compare_natCast]

/-! ## Comparisons -/

theorem exists_place_iff : (∃ a, x.place? = some a) ↔ x.isNaN = false := by
  show (∃ a, unpackedPlace? x.toFloat.toModel.unpack = some a)
    ↔ x.toFloat.toModel.unpack.isNaN = false
  rcases x.toFloat.toModel.unpack with ⟨_ | _⟩ | _ | _ | ⟨_ | _, m, e, hm⟩ <;>
    simp [UnpackedFloat.isNaN, unpackedPlace?]

theorem lt_eq_compare (x y : Double) :
    x.lt y = ((x.place?.bind fun a => y.place?.map (compare a)) == some .lt) := by
  rw [place?, place?, ← compare_unpacked]
  simp only [lt, LT.lt, Float.lt, Bool.decide_eq_true]
  rfl

theorem le_eq_compare (x y : Double) :
    x.le y = (x.place?.bind fun a => y.place?.map (compare a)).any Ordering.isLE := by
  rw [place?, place?, ← compare_unpacked]
  simp only [le, LE.le, Float.le, Bool.decide_eq_true]
  rfl

theorem eq_eq_compare (x y : Double) :
    x.eq y = ((x.place?.bind fun a => y.place?.map (compare a)) == some .eq) := by
  rw [place?, place?, ← compare_unpacked]
  rfl

theorem le_iff : x.le y = true ↔ ∃ a b, x.place? = some a ∧ y.place? = some b ∧ a ≤ b := by
  rw [le_eq_compare]
  cases x.place? with
  | none => simp
  | some a =>
    cases y.place? with
    | none => simp
    | some b => simp [Ordering.isLE_iff_ne_gt, compare_le_iff_le]

/-- Of two numbers, one is below the other or at least as large. -/
theorem not_lt_iff (hx : x.isNaN = false) (hy : y.isNaN = false) :
    y.lt x = false ↔ x.le y = true := by
  obtain ⟨a, ha⟩ := exists_place_iff.mpr hx
  obtain ⟨b, hb⟩ := exists_place_iff.mpr hy
  rw [lt_eq_compare, le_eq_compare, ha, hb]
  simp [Ordering.isLE_iff_ne_gt, compare_le_iff_le, ← not_lt, compare_lt_iff_lt]

theorem le_of_lt (h : x.lt y = true) : x.le y = true := by
  rw [lt_eq_compare, beq_iff_eq] at h
  rw [le_eq_compare, h]
  rfl

theorem le_refl (hx : x.isNaN = false) : x.le x = true := by
  obtain ⟨a, ha⟩ := exists_place_iff.mpr hx
  exact le_iff.mpr ⟨a, a, ha, ha, le_rfl⟩

theorem le_trans (hxy : x.le y = true) (hyz : y.le z = true) : x.le z = true := by
  obtain ⟨a, b, ha, hb, hab⟩ := le_iff.mp hxy
  obtain ⟨b', c, hb', hc, hbc⟩ := le_iff.mp hyz
  obtain rfl : b = b' := Option.some.inj (hb.symm.trans hb')
  exact le_iff.mpr ⟨a, c, ha, hc, hab.trans hbc⟩

/-- Numbers are equal if each is at most the other. -/
theorem eq_of_le_of_le (hxy : x.le y = true) (hyx : y.le x = true) : x.eq y = true := by
  obtain ⟨a, b, ha, hb, hab⟩ := le_iff.mp hxy
  obtain ⟨b', a', hb', ha', hba⟩ := le_iff.mp hyx
  obtain rfl : a = a' := Option.some.inj (ha.symm.trans ha')
  obtain rfl : b = b' := Option.some.inj (hb.symm.trans hb')
  rw [eq_eq_compare, ha, hb, hab.antisymm hba]
  simp

theorem le_of_eq (h : x.eq y = true) : x.le y = true := by
  rw [eq_eq_compare, beq_iff_eq] at h
  rw [le_eq_compare, h]
  rfl

end Telemetry.Double
