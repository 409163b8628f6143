import Telemetry.Proofs.Number.Order
import Telemetry.Proofs.Number.Rounding
import Mathlib

/-!
# Values of the numbers

A pattern is taken apart for arithmetic, and the parts of a result are packed. Every finite pattern
has an exact value, which is a rational number; infinities and NaN have none. Finite numbers are equal
exactly if their values are, so a value belongs to one pattern only, unless it is zero.

## Main definitions

* `Double.unpacked`, `Double.packed`: a pattern taken apart, and the pattern of its parts.
* `Double.value?`: the exact value of a finite number.
* `Double.infinityOf`: the infinity with the given sign.

## Main statements

* `Double.isFinite_iff`: finite numbers are the ones with a value.
* `Double.eq_iff`: what a finite number is equal to.
-/
namespace Telemetry.Double

open Float.Model (Format UnpackedFloat)
open Float.Model.UnpackedFloat
open Rounding

variable {x y : Double} {q : ℚ} {s t : Sign} {m n : ℕ} {e f : ℤ}

/-! ## Taking patterns apart -/

/-- A pattern taken apart. -/
def unpacked (x : Double) : UnpackedFloat := x.toFloat.toModel.unpack

/-- The pattern that is made of parts. -/
def packed (u : UnpackedFloat) : Double := ofFloat (.ofModel (.pack u))

theorem add_eq (x y : Double) : x + y = packed (add Format.binary64 x.unpacked y.unpacked) := rfl

theorem sub_eq (x y : Double) : x - y = packed (sub Format.binary64 x.unpacked y.unpacked) := rfl

theorem mul_eq (x y : Double) : x * y = packed (mul Format.binary64 x.unpacked y.unpacked) := rfl

theorem div_eq (x y : Double) : x / y = packed (div Format.binary64 x.unpacked y.unpacked) := rfl

theorem sqrt_eq (x : Double) : x.sqrt = packed (UnpackedFloat.sqrt Format.binary64 x.unpacked) := rfl

theorem abs_eq (x : Double) : x.abs = packed x.unpacked.abs := rfl

theorem unpacked_packed (u : UnpackedFloat) :
    (packed u).unpacked = unpack Format.binary64 (pack Format.binary64 u) := by
  show (Float.ofBits (Float.ofModel (.pack u)).toBits).toModel.unpack = _
  rw [Float.ofBits_toBits]
  rfl

theorem unpacked_eq_unpack (x : Double) : x.unpacked = unpack Format.binary64 x.bits.toBitVec :=
  unpack_pack_unpack x.bits.toBitVec

theorem isCanonical_of_unpacked {hm : 0 < m} (h : x.unpacked = .finite s m e hm) :
    IsCanonical m e ∧ e ≤ 971 :=
  isCanonical_of_unpack (x.unpacked_eq_unpack ▸ h)

theorem unpacked_packed_finite (h : IsCanonical m e) (hm : 0 < m) (s : Sign) :
    (packed (.finite s m e hm)).unpacked = if e ≤ 971 then .finite s m e hm else .infinity s := by
  rw [unpacked_packed, unpack_pack h hm s]

theorem isNaN_iff_unpacked : x.isNaN = true ↔ x.unpacked = .notANumber := isNaN_iff

/-- The parts of a number, packed, are the number. -/
theorem packed_unpacked (h : x.isNaN = false) : packed x.unpacked = x := by
  have hnumber : x.unpacked ≠ .notANumber := by
    rw [Ne, ← isNaN_iff_unpacked, h]
    simp
  rw [unpacked_eq_unpack] at hnumber ⊢
  show Double.mk (.ofBitVec (pack Format.binary64 (unpack Format.binary64 x.bits.toBitVec))) = x
  rw [(pack_unpack_cases x.bits.toBitVec).resolve_right fun h => hnumber h.1]

/-- The infinity with the given sign. -/
def infinityOf : Sign → Double
  | .positive => infinity
  | .negative => negativeInfinity

theorem packed_infinity (s : Sign) : packed (.infinity s) = infinityOf s := by
  cases s <;> rfl

@[simp] theorem unpacked_infinityOf (s : Sign) : (infinityOf s).unpacked = .infinity s := by
  rw [← packed_infinity, unpacked_packed]
  cases s <;> rfl

theorem eq_infinityOf_iff : x = infinityOf s ↔ x.unpacked = .infinity s := by
  refine ⟨fun h => h ▸ unpacked_infinityOf s, fun h => ?_⟩
  have hnumber : x.isNaN = false := by
    show x.unpacked.isNaN = false
    rw [h]
    rfl
  rw [← packed_unpacked hnumber, h, packed_infinity]

/-! ## Values -/

/-- The exact value of an unpacked number. -/
def unpackedValue? : UnpackedFloat → Option ℚ
  | .zero _ => some 0
  | .finite s m e _ => some (s.apply m * 2 ^ e)
  | _ => none

/-- The exact value of a finite number. -/
def value? (x : Double) : Option ℚ := unpackedValue? x.unpacked

theorem toNat_unpackExponent (x : Double) :
    (@unpackExponent Format.binary64 x.bits.toBitVec).toNat = x.exponentBits := by
  rw [unpackExponent_def, BitVec.extractLsb'_toNat, Nat.shiftRight_eq_div_pow]
  rfl

/-- Finite numbers are the ones with a value. -/
theorem isFinite_iff : x.isFinite = true ↔ ∃ q, x.value? = some q := by
  rw [value?, unpacked_eq_unpack,
    ← @packComponents_unpackSign_unpackExponent_unpackMantissa Format.binary64 x.bits.toBitVec,
    unpack_packComponents, toNat_unpackExponent, isFinite]
  split_ifs with hmax <;> simp [hmax, unpackedValue?]

theorem value?_cases (h : x.value? = some q) :
    (∃ s, x.unpacked = .zero s ∧ q = 0) ∨
      ∃ s m e, ∃ hm : 0 < m, x.unpacked = .finite s m e hm ∧ q = s.apply m * 2 ^ e := by
  rw [value?] at h
  rcases hx : x.unpacked with t | _ | t | ⟨t, m, e, hm⟩ <;> simp only [hx, unpackedValue?] at h
  · cases h
  · cases h
  · exact .inl ⟨t, rfl, (Option.some.inj h).symm⟩
  · exact .inr ⟨t, m, e, hm, rfl, (Option.some.inj h).symm⟩

theorem value?_of_finite {hm : 0 < m} (h : x.unpacked = .finite s m e hm) :
    x.value? = some ((s.apply m : ℚ) * 2 ^ e) := by
  rw [value?, h, unpackedValue?]

theorem value?_of_zero (h : x.unpacked = .zero s) : x.value? = some 0 := by
  rw [value?, h, unpackedValue?]

theorem apply_eq_zero_iff : (s.apply m : ℤ) = 0 ↔ m = 0 := by
  cases s <;> simp [Sign.apply]

theorem apply_mul_ne_zero (hm : 0 < m) (e : ℤ) : (s.apply m : ℚ) * 2 ^ e ≠ 0 := by
  have : s.apply m ≠ 0 := mt apply_eq_zero_iff.mp hm.ne'
  positivity

theorem value?_eq_zero_iff : x.value? = some 0 ↔ ∃ s, x.unpacked = .zero s := by
  refine ⟨fun h => ?_, fun ⟨s, h⟩ => value?_of_zero h⟩
  rcases value?_cases h with ⟨s, hs, -⟩ | ⟨s, m, e, hm, -, hzero⟩
  · exact ⟨s, hs⟩
  · exact absurd hzero.symm (apply_mul_ne_zero hm e)

/-- Equal numbers that are not zero have one sign and one magnitude. -/
theorem eq_of_apply_mul_eq (hm : 0 < m) (hn : 0 < n)
    (h : (s.apply m : ℚ) * 2 ^ e = t.apply n * 2 ^ f) : s = t ∧ (m : ℚ) * 2 ^ e = n * 2 ^ f := by
  have hmpos : (0 : ℚ) < m * 2 ^ e := by positivity
  have hnpos : (0 : ℚ) < n * 2 ^ f := by positivity
  cases s <;> cases t <;> simp only [Sign.apply, Int.cast_neg, Int.cast_natCast, neg_mul] at h
  · exact ⟨rfl, neg_injective h⟩
  · linarith
  · linarith
  · exact ⟨rfl, h⟩

/-- A number that is not zero is on the side of its sign. -/
theorem unpacked_of_pos (h : x.value? = some q) (hq : 0 < q) :
    ∃ m e, ∃ hm : 0 < m, x.unpacked = .finite .positive m e hm := by
  rcases value?_cases h with ⟨s, -, rfl⟩ | ⟨s, m, e, hm, hx, rfl⟩
  · exact absurd hq (lt_irrefl 0)
  · cases s with
    | positive => exact ⟨m, e, hm, hx⟩
    | negative =>
      have : (0 : ℚ) < m * 2 ^ e := by positivity
      simp [Sign.apply] at hq
      linarith

/-- What is neither NaN nor infinite is finite. -/
theorem cases (x : Double) :
    x.isNaN = true ∨ (∃ s, x = infinityOf s) ∨ ∃ q, x.value? = some q := by
  rcases hx : x.unpacked with s | _ | s | ⟨s, m, e, hm⟩
  · exact .inr (.inl ⟨s, eq_infinityOf_iff.mpr hx⟩)
  · exact .inl (isNaN_iff_unpacked.mpr hx)
  · exact .inr (.inr ⟨0, value?_of_zero hx⟩)
  · exact .inr (.inr ⟨_, value?_of_finite hx⟩)

theorem isNaN_of_value? (h : x.value? = some q) : x.isNaN = false := by
  show x.unpacked.isNaN = false
  rcases value?_cases h with ⟨s, hx, -⟩ | ⟨s, m, e, hm, hx, -⟩ <;> rw [hx] <;> rfl

/-! ## Equality -/

/-- Of the numbers that are not zero, each has a value of its own. -/
theorem unpacked_eq_of_value? (hx : x.value? = some q) (hy : y.value? = some q) (hq : q ≠ 0) :
    x.unpacked = y.unpacked := by
  rcases value?_cases hx with ⟨-, -, rfl⟩ | ⟨s, m, e, hm, hxm, rfl⟩
  · exact absurd rfl hq
  rcases value?_cases hy with ⟨-, -, hzero⟩ | ⟨t, n, f, hn, hyn, heq⟩
  · exact absurd hzero hq
  obtain ⟨rfl, hvalue⟩ := eq_of_apply_mul_eq hm hn heq
  obtain ⟨rfl, rfl⟩ := (isCanonical_of_unpacked hxm).1.eq_of_eq (isCanonical_of_unpacked hyn).1 hm
    hvalue.symm
  rw [hxm, hyn]

theorem eq_iff_unpacked : x.eq y = true ↔
    x.isNaN = false ∧ y.isNaN = false ∧ (x.unpacked = y.unpacked ∨
      x.value? = some 0 ∧ y.value? = some 0) := by
  have hbeq := beq_iff_ne_notANumber_and_eq x.unpacked y.unpacked
  rw [← Bool.not_eq_true, ← Bool.not_eq_true, isNaN_iff_unpacked, isNaN_iff_unpacked,
    value?_eq_zero_iff, value?_eq_zero_iff]
  refine hbeq.trans (and_congr_right fun _ => and_congr_right fun _ => ?_)
  constructor
  · rintro (h | ⟨hx, hy⟩ | ⟨hx, hy⟩)
    · exact .inl h
    · exact .inr ⟨⟨_, hx⟩, _, hy⟩
    · exact .inr ⟨⟨_, hx⟩, _, hy⟩
  · rintro (h | ⟨⟨s, hx⟩, t, hy⟩)
    · exact .inl h
    · cases s <;> cases t <;> simp [hx, hy]

/-- A finite number is equal to the numbers with its value. -/
theorem eq_iff (hx : x.value? = some q) : x.eq y = true ↔ y.value? = some q := by
  rw [eq_iff_unpacked]
  constructor
  · rintro ⟨-, -, heq | ⟨hzero, hy⟩⟩
    · rwa [value?, ← heq]
    · rwa [← hx, hzero]
  · intro hy
    refine ⟨isNaN_of_value? hx, isNaN_of_value? hy, ?_⟩
    by_cases hq : q = 0
    · exact .inr ⟨hq ▸ hx, hq ▸ hy⟩
    · exact .inl (unpacked_eq_of_value? hx hy hq)

theorem lt_eq_unpacked (x y : Double) : x.lt y = x.unpacked.lt y.unpacked := by
  simp only [lt, LT.lt, Float.lt, Bool.decide_eq_true]
  rfl

theorem lt_infinity (hx : x.value? = some q) : x.lt infinity = true := by
  have hinfinity : infinity.unpacked = .infinity .positive := unpacked_infinityOf .positive
  rw [lt_eq_unpacked, hinfinity]
  rcases value?_cases hx with ⟨s, hs, -⟩ | ⟨_ | _, m, e, hm, hs, -⟩ <;> rw [hs] <;> rfl

theorem negativeInfinity_lt (hx : x.value? = some q) : negativeInfinity.lt x = true := by
  have hinfinity : negativeInfinity.unpacked = .infinity .negative := unpacked_infinityOf .negative
  rw [lt_eq_unpacked, hinfinity]
  rcases value?_cases hx with ⟨s, hs, -⟩ | ⟨_ | _, m, e, hm, hs, -⟩ <;> rw [hs] <;> rfl

theorem eq_swap (x y : Double) : x.eq y = y.eq x := by
  rw [Bool.eq_iff_iff, eq_iff_unpacked, eq_iff_unpacked]
  tauto

theorem value?_zero : zero.value? = some 0 := rfl

theorem value?_negativeZero : negativeZero.value? = some 0 := rfl

theorem eq_zero_iff : x.eq .zero = true ↔ x.value? = some 0 := by
  rw [eq_swap, eq_iff value?_zero]

end Telemetry.Double
