import Telemetry.Proofs.Number.Value
import Mathlib

/-!
# Arithmetic of the numbers

A sum or a difference of finite numbers is an exact number that is rounded. Rounding keeps the side of
zero, and what a double can hold, and its result is infinite only if the exact number is out of range.
A product or a quotient may also be too small for its bits; where a double can hold it, it is the
result.

## Main definitions

* `Double.Rounds`: what a sum or a difference is rounded to.

## Main statements

* `Double.rounds_add`, `Double.rounds_sub`, `Double.rounds_ofNat`: results that are rounded.
* `Double.value?_mul`, `Double.value?_div`: exact products and quotients.
* `Double.isNaN_add_iff`: when a sum is NaN.
* `Double.value?_sub_eq_zero_iff`: when a difference is zero.
* `Double.truncate_of_value?`: whole numbers survive truncation.
-/
namespace Telemetry.Double

open Float.Model (Format UnpackedFloat)
open Float.Model.UnpackedFloat
open Rounding

variable {x y z : Double} {p q r : ℚ} {s : Sign} {m n : ℕ} {e f : ℤ}

/-! ## Rounding -/

theorem value?_packed_zero (s : Sign) : (packed (.zero s)).value? = some 0 := by
  cases s <;> rfl

theorem value?_packed_finite (h : IsCanonical m e) (hm : 0 < m) (hrange : e ≤ 971) (s : Sign) :
    (packed (.finite s m e hm)).value? = some ((s.apply m : ℚ) * 2 ^ e) := by
  rw [value?, unpacked_packed_finite h hm, if_pos hrange, unpackedValue?]

theorem value?_packed_round (h : IsCanonical m e) (hm : 0 < m) (hrange : e ≤ 971) (s : Sign) (k : ℕ) :
    (packed (roundWithAccuracy Format.binary64 s (m * 2 ^ k) (e - k) .exact)).value?
      = some ((s.apply m : ℚ) * 2 ^ e) := by
  rw [roundWithAccuracy_mul_two_pow h hm s k]
  exact value?_packed_finite h hm hrange s

/-- What an exact number is rounded to, if it is no finer than the doubles next to zero. -/
inductive Rounds : ℚ → Double → Prop
  | zero {x : Double} (h : x.value? = some 0) : Rounds 0 x
  | nonzero (s : Sign) {m : ℕ} {e : ℤ} (hm : 0 < m) (he : -1074 ≤ e) :
    Rounds (s.apply m * 2 ^ e) (packed (UnpackedFloat.round Format.binary64 s m e))

/-- The sign is kept, and infinity is reached only by numbers out of range. -/
theorem packed_round_cases (hm : 0 < m) (he : -1074 ≤ e) (s : Sign) :
    (∃ n f, ∃ hn : 0 < n,
      (packed (UnpackedFloat.round Format.binary64 s m e)).unpacked = .finite s n f hn) ∨
    970 < target m e ∧ packed (UnpackedFloat.round Format.binary64 s m e) = infinityOf s := by
  obtain ⟨n, f, hn, hround, hcanonical, -, hle⟩ := exists_round hm he s
  rw [hround]
  by_cases hrange : f ≤ 971
  · refine .inl ⟨n, f, hn, ?_⟩
    rw [unpacked_packed_finite hcanonical hn, if_pos hrange]
  · refine .inr ⟨by omega, eq_infinityOf_iff.mpr ?_⟩
    rw [unpacked_packed_finite hcanonical hn, if_neg hrange]

namespace Rounds

theorem isNaN (h : Rounds r x) : x.isNaN = false := by
  cases h with
  | zero h => exact isNaN_of_value? h
  | nonzero s hm he =>
    rcases packed_round_cases hm he s with ⟨n, f, hn, hx⟩ | ⟨-, hx⟩
    · exact isNaN_of_value? (value?_of_finite hx)
    · rw [hx]
      cases s <;> rfl

/-- Nothing but zero is rounded to zero. -/
theorem value?_eq_zero_iff (h : Rounds r x) : x.value? = some 0 ↔ r = 0 := by
  cases h with
  | zero h => simp [h]
  | nonzero s hm he =>
    refine iff_of_false (fun hzero => ?_) (apply_mul_ne_zero hm _)
    obtain ⟨t, ht⟩ := Double.value?_eq_zero_iff.mp hzero
    rcases packed_round_cases hm he s with ⟨n, f, hn, hx⟩ | ⟨-, hx⟩
    · rw [hx] at ht
      cases ht
    · rw [hx, unpacked_infinityOf] at ht
      cases ht

theorem of_pos (h : Rounds r x) (hr : 0 < r) : (∃ q, x.value? = some q ∧ 0 < q) ∨ x = infinity := by
  cases h with
  | zero h => exact absurd hr (lt_irrefl 0)
  | @nonzero s m e hm he =>
    cases s with
    | negative =>
      have : (0 : ℚ) < m * 2 ^ e := by positivity
      simp [Sign.apply] at hr
      linarith
    | positive =>
      rcases packed_round_cases hm he .positive with ⟨n, f, hn, hx⟩ | ⟨-, hx⟩
      · refine .inl ⟨_, value?_of_finite hx, ?_⟩
        simp only [Sign.apply, Int.cast_natCast]
        positivity
      · exact .inr hx

/-- A number well within range is rounded to a finite one. -/
theorem exists_value? (h : Rounds r x) (hr : |r| < 2 ^ 1000) : ∃ q, x.value? = some q := by
  cases h with
  | zero h => exact ⟨0, h⟩
  | @nonzero s m e hm he =>
    rcases packed_round_cases hm he s with ⟨n, f, hn, hx⟩ | ⟨hrange, -⟩
    · exact ⟨_, value?_of_finite hx⟩
    · have habs : |(s.apply m : ℚ) * 2 ^ e| = m * 2 ^ e := by
        have : (0 : ℚ) < 2 ^ e := by positivity
        cases s <;> simp [Sign.apply, abs_mul, abs_of_pos this]
      have hlog : (2 : ℚ) ^ (m.log2 : ℤ) ≤ m := by
        exact_mod_cast ((Nat.log2_eq_iff hm.ne').mp rfl).1
      have hlow : (2 : ℚ) ^ (1000 : ℤ) ≤ m * 2 ^ e := calc
        (2 : ℚ) ^ (1000 : ℤ) ≤ 2 ^ ((m.log2 : ℤ) + e) := by
          refine zpow_le_zpow_right₀ one_le_two ?_
          rw [target] at hrange
          omega
        _ = 2 ^ (m.log2 : ℤ) * 2 ^ e := zpow_add₀ two_ne_zero _ _
        _ ≤ m * 2 ^ e := by gcongr
      rw [habs] at hr
      exact absurd hlow (not_le.mpr (by exact_mod_cast hr))

/-- What a double can hold is rounded to itself. -/
theorem value?_of_value? (h : Rounds r x) (hy : y.value? = some r) : x.value? = some r := by
  cases h with
  | zero h => exact h
  | @nonzero s m e hm he =>
    rcases value?_cases hy with ⟨-, -, hzero⟩ | ⟨t, n, f, hn, hyn, heq⟩
    · exact absurd hzero (apply_mul_ne_zero hm e)
    · obtain ⟨hcanonical, hrange⟩ := isCanonical_of_unpacked hyn
      obtain ⟨rfl, hvalue⟩ := eq_of_apply_mul_eq hm hn heq
      rw [round_eq hcanonical hn hvalue, value?_packed_finite hcanonical hn hrange, heq]

/-- So a positive number well within range is rounded to one. -/
theorem exists_pos (h : Rounds r x) (hpos : 0 < r) (hr : r < 2 ^ 1000) :
    ∃ q, x.value? = some q ∧ 0 < q := by
  rcases h.of_pos hpos with hq | hinfinity
  · exact hq
  · obtain ⟨q, hq⟩ := h.exists_value? (by rwa [abs_of_pos hpos])
    rw [hinfinity] at hq
    cases hq

end Rounds

/-! ## Sums and differences -/

theorem normalize_apply (hm : 0 < m) (s t : Sign) (e : ℤ) :
    UnpackedFloat.normalize Format.binary64 (s.apply m) e t
      = UnpackedFloat.round Format.binary64 s m e := by
  cases s with
  | positive =>
    have hcompare : compare (m : ℤ) 0 = .gt := compare_gt_iff_gt.mpr (by omega)
    simp [UnpackedFloat.normalize, Sign.apply, hcompare]
  | negative =>
    have hcompare : compare (-(m : ℤ)) 0 = .lt := compare_lt_iff_lt.mpr (by omega)
    simp [UnpackedFloat.normalize, Sign.apply, hcompare]

theorem exists_apply {k : ℤ} (hk : k ≠ 0) : ∃ (s : Sign) (m : ℕ), 0 < m ∧ k = s.apply m := by
  rcases lt_or_gt_of_ne hk with hneg | hpos
  · exact ⟨.negative, k.natAbs, by omega, by simp only [Sign.apply]; omega⟩
  · exact ⟨.positive, k.natAbs, by omega, by simp only [Sign.apply]; omega⟩

theorem rounds_normalize (k : ℤ) (he : -1074 ≤ e) :
    Rounds (k * 2 ^ e) (packed (UnpackedFloat.normalize Format.binary64 k e .positive)) := by
  by_cases hk : k = 0
  · subst hk
    rw [Int.cast_zero, zero_mul]
    exact .zero (value?_packed_zero .positive)
  · obtain ⟨s, m, hm, rfl⟩ := exists_apply hk
    rw [normalize_apply hm]
    exact .nonzero s hm he

theorem rounds_finite (h : IsCanonical m e) (hm : 0 < m) (s : Sign) :
    Rounds (s.apply m * 2 ^ e) (packed (.finite s m e hm)) := by
  rw [← round_eq h hm rfl s]
  exact .nonzero s hm h.le

/-- A mantissa is lengthened for a smaller exponent without a change of the number. -/
theorem apply_decreaseExponent (s : Sign) (m : ℕ) (hle : f ≤ e) :
    (s.apply (decreaseExponent m e f).1 : ℚ) * 2 ^ f = s.apply m * 2 ^ e := by
  obtain ⟨k, rfl⟩ := Int.le.dest hle
  have hshift : (f + k - f).toNat = k := by omega
  rw [decreaseExponent, hshift, two_zpow_add, ← mul_assoc]
  cases s <;> simp [Sign.apply, Nat.shiftLeft_eq]

theorem rounds_add (hx : x.value? = some p) (hy : y.value? = some q) : Rounds (p + q) (x + y) := by
  rw [add_eq]
  rcases value?_cases hx with ⟨s, hxz, rfl⟩ | ⟨s, m, e, hm, hxm, rfl⟩
  · rcases value?_cases hy with ⟨t, hyz, rfl⟩ | ⟨t, n, f, hn, hyn, rfl⟩
    · rw [hxz, hyz, add_zero]
      cases s <;> cases t <;> exact .zero (value?_packed_zero _)
    · rw [hxz, hyn, zero_add]
      exact rounds_finite (isCanonical_of_unpacked hyn).1 hn t
  · rcases value?_cases hy with ⟨t, hyz, rfl⟩ | ⟨t, n, f, hn, hyn, rfl⟩
    · rw [hxm, hyz, add_zero]
      exact rounds_finite (isCanonical_of_unpacked hxm).1 hm s
    · rw [hxm, hyn, ← apply_decreaseExponent s m (min_le_left e f),
        ← apply_decreaseExponent t n (min_le_right e f), ← add_mul, ← Int.cast_add]
      exact rounds_normalize _
        (le_min (isCanonical_of_unpacked hxm).1.le (isCanonical_of_unpacked hyn).1.le)

theorem apply_neg (s : Sign) (k : ℤ) : (-s).apply k = -s.apply k := by
  cases s with
  | positive => rfl
  | negative => exact (neg_neg k).symm

theorem rounds_sub (hx : x.value? = some p) (hy : y.value? = some q) : Rounds (p - q) (x - y) := by
  rw [sub_eq]
  rcases value?_cases hx with ⟨s, hxz, rfl⟩ | ⟨s, m, e, hm, hxm, rfl⟩
  · rcases value?_cases hy with ⟨t, hyz, rfl⟩ | ⟨t, n, f, hn, hyn, rfl⟩
    · rw [hxz, hyz, sub_zero]
      cases s <;> cases t <;> exact .zero (value?_packed_zero _)
    · rw [hxz, hyn, zero_sub, ← neg_mul, ← Int.cast_neg, ← apply_neg]
      exact rounds_finite (isCanonical_of_unpacked hyn).1 hn (-t)
  · rcases value?_cases hy with ⟨t, hyz, rfl⟩ | ⟨t, n, f, hn, hyn, rfl⟩
    · rw [hxm, hyz, sub_zero]
      exact rounds_finite (isCanonical_of_unpacked hxm).1 hm s
    · rw [hxm, hyn, ← apply_decreaseExponent s m (min_le_left e f),
        ← apply_decreaseExponent t n (min_le_right e f), ← sub_mul, ← Int.cast_sub]
      exact rounds_normalize _
        (le_min (isCanonical_of_unpacked hxm).1.le (isCanonical_of_unpacked hyn).1.le)

/-- A difference of different numbers is not zero. -/
theorem sub_cases (hx : x.value? = some p) (hy : y.value? = some q) (hne : p ≠ q) :
    (∃ r, (x - y).value? = some r ∧ r ≠ 0) ∨ ∃ s, x - y = infinityOf s := by
  have hround := rounds_sub hx hy
  have hzero : (x - y).value? ≠ some 0 := by
    rw [Ne, hround.value?_eq_zero_iff]
    exact sub_ne_zero.mpr hne
  rcases (x - y).cases with hnan | hinfinite | ⟨r, hr⟩
  · rw [hround.isNaN] at hnan
    cases hnan
  · exact .inr hinfinite
  · exact .inl ⟨r, hr, fun h => hzero (h ▸ hr)⟩

/-- The same number is left by the same difference, whichever zero it is taken from. -/
theorem sub_congr (hx : x.value? = some p) (hy : y.value? = some p) (hz : z.value? = some q)
    (hne : p ≠ q) : x - z = y - z := by
  by_cases hp : p = 0
  · subst hp
    obtain ⟨s, hxs⟩ := value?_eq_zero_iff.mp hx
    obtain ⟨t, hyt⟩ := value?_eq_zero_iff.mp hy
    rcases value?_cases hz with ⟨-, -, hq⟩ | ⟨u, m, e, hm, hzm, -⟩
    · exact absurd hq.symm hne
    · rw [sub_eq, sub_eq, hxs, hyt, hzm]
      rfl
  · rw [sub_eq, sub_eq, unpacked_eq_of_value? hx hy hp]

/-! ## Whole numbers -/

theorem ofNat_eq_packed (hpos : 0 < n) (hn : n < 2 ^ 64) :
    ofNat n = packed (UnpackedFloat.round Format.binary64 .positive n 0) := by
  have hword : n.toUInt64.toNat = n := Nat.mod_eq_of_lt hn
  show packed (UnpackedFloat.normalize Format.binary64 (n.toUInt64.toNat : ℕ) 0 .positive) = _
  rw [hword]
  exact congrArg packed (normalize_apply hpos .positive .positive 0)

theorem rounds_ofNat (hn : n < 2 ^ 64) : Rounds n (ofNat n) := by
  rcases Nat.eq_zero_or_pos n with rfl | hpos
  · exact .zero rfl
  · have hround := Rounds.nonzero .positive hpos (e := 0) (by omega)
    rw [zpow_zero, mul_one, Sign.apply, Int.cast_natCast] at hround
    rwa [ofNat_eq_packed hpos hn]

theorem value?_ofNat_of_eq (h : IsCanonical m e) (hm : 0 < m) (hrange : e ≤ 971)
    (heq : (m : ℚ) * 2 ^ e = n) (hn : n < 2 ^ 64) : (ofNat n).value? = some (n : ℚ) := by
  have hvalue := value?_packed_finite h hm hrange .positive
  rw [Sign.apply, Int.cast_natCast, heq] at hvalue
  exact (rounds_ofNat hn).value?_of_value? hvalue

/-- Whole numbers of up to fifty-three bits are exact. -/
theorem value?_ofNat (hn : n ≤ 2 ^ 53) : (ofNat n).value? = some (n : ℚ) := by
  rcases Nat.eq_zero_or_pos n with rfl | hpos
  · rfl
  rcases hn.lt_or_eq with hlt | rfl
  · obtain ⟨k, hk⟩ : ∃ k, n.log2 + k = 52 :=
      ⟨52 - n.log2, by have := (Nat.log2_lt hpos.ne').mpr hlt; omega⟩
    have hlong : 0 < n * 2 ^ k := by positivity
    have htarget : (-k : ℤ) = target (n * 2 ^ k) (-k) := by
      rw [target, log2_mul_two_pow hpos]
      omega
    exact value?_ofNat_of_eq (isCanonical_of_log2 hlong htarget) hlong (by omega) (by simp) (by omega)
  · exact value?_ofNat_of_eq (m := 2 ^ 52) (e := 1) ⟨by omega, by omega, .inl le_rfl⟩ (by positivity)
      (by omega) (by norm_num) (by omega)

/-- Longer whole numbers have at least as many bits behind rounding, and are well within range. -/
theorem exists_value?_ofNat_of_lt (hlo : 2 ^ 53 < n) (hhi : n < 2 ^ 64) :
    ∃ q, (ofNat n).value? = some q ∧ 1 < q ∧ q < 2 ^ 1000 := by
  have hlog : 53 ≤ n.log2 ∧ n.log2 < 64 :=
    ⟨(Nat.le_log2 (by omega)).mpr hlo.le, (Nat.log2_lt (by omega)).mpr hhi⟩
  obtain ⟨m, e, hm, hround, hcanonical, hlow, hhigh⟩ :=
    exists_round (m := n) (e := 0) (by omega) (by omega) .positive
  have hexponent : 0 ≤ e ∧ e ≤ 12 := by
    rw [target] at hlow hhigh
    omega
  have hfull : 2 ^ 52 ≤ m := hcanonical.normal.resolve_right (by omega)
  refine ⟨m * 2 ^ e, ?_, ?_, ?_⟩
  · rw [ofNat_eq_packed (by omega) hhi, hround]
    exact value?_packed_finite hcanonical hm (by omega) .positive
  · calc
      (1 : ℚ) < 2 ^ 52 * 2 ^ (0 : ℤ) := by norm_num
      _ ≤ m * 2 ^ e := by
        gcongr
        · exact_mod_cast hfull
        · exact one_le_two
        · exact hexponent.1
  · calc
      (m : ℚ) * 2 ^ e ≤ 2 ^ 53 * 2 ^ (12 : ℤ) := by
        gcongr
        · exact_mod_cast hcanonical.lt.le
        · exact one_le_two
        · exact hexponent.2
      _ = 2 ^ 65 := by norm_num
      _ < 2 ^ 1000 := pow_lt_pow_right₀ one_lt_two (by omega)

/-- Rounding leaves a whole number above one where it is, and within range. -/
theorem exists_value?_ofNat (hlo : 2 ≤ n) (hhi : n < 2 ^ 64) :
    ∃ q, (ofNat n).value? = some q ∧ 1 < q ∧ q < 2 ^ 1000 := by
  rcases le_or_gt n (2 ^ 53) with hn | hn
  · refine ⟨n, value?_ofNat hn, by exact_mod_cast hlo, ?_⟩
    calc
      (n : ℚ) ≤ 2 ^ 53 := by exact_mod_cast hn
      _ < 2 ^ 1000 := pow_lt_pow_right₀ one_lt_two (by omega)
  · exact exists_value?_ofNat_of_lt hn hhi

/-! ## Products and quotients -/

theorem mul_apply_mul (s t : Sign) (m n : ℕ) :
    (s * t).apply (m * n : ℕ) = s.apply m * t.apply n := by
  cases s <;> cases t
  · show ((m * n : ℕ) : ℤ) = -m * -n
    push_cast
    ring
  · show -((m * n : ℕ) : ℤ) = -m * n
    push_cast
    ring
  · show -((m * n : ℕ) : ℤ) = m * -n
    push_cast
    ring
  · show ((m * n : ℕ) : ℤ) = m * n
    exact Nat.cast_mul m n

theorem apply_mul_apply (s t : Sign) (m n : ℕ) (e f : ℤ) :
    (s.apply m : ℚ) * 2 ^ e * (t.apply n * 2 ^ f) = (s * t).apply (m * n : ℕ) * 2 ^ (e + f) := by
  rw [mul_apply_mul, zpow_add₀ two_ne_zero, Int.cast_mul]
  ring

/-- A product that a double can hold is exact. -/
theorem value?_mul (hx : x.value? = some p) (hy : y.value? = some q)
    (hz : z.value? = some (p * q)) : (x * y).value? = some (p * q) := by
  rw [mul_eq]
  rcases value?_cases hx with ⟨s, hxz, rfl⟩ | ⟨s, m, e, hm, hxm, rfl⟩
  · rcases value?_cases hy with ⟨t, hyz, rfl⟩ | ⟨t, n, f, hn, hyn, rfl⟩
    · rw [hxz, hyz, zero_mul]
      exact value?_packed_zero (s * t)
    · rw [hxz, hyn, zero_mul]
      exact value?_packed_zero (s * t)
  · rcases value?_cases hy with ⟨t, hyz, rfl⟩ | ⟨t, n, f, hn, hyn, rfl⟩
    · rw [hxm, hyz, mul_zero]
      exact value?_packed_zero (s * t)
    · rcases value?_cases hz with ⟨-, -, hzero⟩ | ⟨u, k, g, hk, hzk, heq⟩
      · exact absurd hzero (mul_ne_zero (apply_mul_ne_zero hm e) (apply_mul_ne_zero hn f))
      · obtain ⟨hcanonical, hrange⟩ := isCanonical_of_unpacked hzk
        rw [heq]
        rw [apply_mul_apply] at heq
        obtain ⟨rfl, hvalue⟩ := eq_of_apply_mul_eq (Nat.mul_pos hm hn) hk heq
        obtain ⟨j, rfl⟩ := Int.le.dest (add_le_of_mul_eq (isCanonical_of_unpacked hxm).1
          (isCanonical_of_unpacked hyn).1 hcanonical hm hn hvalue.symm)
        have hround := value?_packed_round hcanonical hk hrange (s * t) j
        rw [← eq_mul_two_pow hvalue, add_sub_cancel_right] at hround
        rwa [hxm, hyn]

/-- A quotient that a double can hold is exact. -/
theorem value?_div (hx : x.value? = some p) (hy : y.value? = some q) (hq : q ≠ 0)
    (hz : z.value? = some (p / q)) : (x / y).value? = some (p / q) := by
  rw [div_eq]
  rcases value?_cases hy with ⟨-, -, rfl⟩ | ⟨t, n, f, hn, hyn, rfl⟩
  · exact absurd rfl hq
  rcases value?_cases hx with ⟨s, hxz, rfl⟩ | ⟨s, m, e, hm, hxm, rfl⟩
  · rw [hxz, hyn, zero_div]
    exact value?_packed_zero (s / t)
  rcases value?_cases hz with ⟨-, -, hzero⟩ | ⟨u, k, g, hk, hzk, heq⟩
  · exact absurd hzero (div_ne_zero (apply_mul_ne_zero hm e) hq)
  obtain ⟨hcanonical, hrange⟩ := isCanonical_of_unpacked hzk
  rw [heq]
  rw [div_eq_iff hq, apply_mul_apply] at heq
  obtain ⟨rfl, hvalue⟩ := eq_of_apply_mul_eq hm (Nat.mul_pos hk hn) heq
  obtain ⟨j, hcore⟩ := exists_divCore_eq hcanonical hk hm hn hvalue
  have hsign : u * t / t = u := by
    cases u <;> cases t <;> rfl
  simp only [hxm, hyn, div, hcore, hsign]
  exact value?_packed_round hcanonical hk hrange u j

/-! ## Infinities and NaN -/

@[simp] theorem value?_infinityOf (s : Sign) : (infinityOf s).value? = none := by
  rw [value?, unpacked_infinityOf]
  rfl

@[simp] theorem isNaN_infinityOf (s : Sign) : (infinityOf s).isNaN = false := by
  cases s <;> rfl

theorem infinityOf_injective : Function.Injective infinityOf := fun s t h => by
  simpa using congrArg unpacked h

theorem add_infinityOf (hx : x.value? = some q) (s : Sign) : x + infinityOf s = infinityOf s := by
  rw [add_eq]
  rcases value?_cases hx with ⟨t, ht, -⟩ | ⟨t, m, e, hm, ht, -⟩ <;>
    rw [ht, unpacked_infinityOf] <;> exact packed_infinity s

theorem infinityOf_add (hx : x.value? = some q) (s : Sign) : infinityOf s + x = infinityOf s := by
  rw [add_eq]
  rcases value?_cases hx with ⟨t, ht, -⟩ | ⟨t, m, e, hm, ht, -⟩ <;>
    rw [ht, unpacked_infinityOf] <;> exact packed_infinity s

theorem sub_infinityOf (hx : x.value? = some q) (s : Sign) :
    x - infinityOf s = infinityOf (-s) := by
  rw [sub_eq]
  rcases value?_cases hx with ⟨t, ht, -⟩ | ⟨t, m, e, hm, ht, -⟩ <;>
    rw [ht, unpacked_infinityOf] <;> exact packed_infinity (-s)

theorem infinityOf_sub (hx : x.value? = some q) (s : Sign) : infinityOf s - x = infinityOf s := by
  rw [sub_eq]
  rcases value?_cases hx with ⟨t, ht, -⟩ | ⟨t, m, e, hm, ht, -⟩ <;>
    rw [ht, unpacked_infinityOf] <;> exact packed_infinity s

theorem infinityOf_div (hx : x.value? = some q) (hq : 0 < q) (s : Sign) :
    infinityOf s / x = infinityOf s := by
  obtain ⟨m, e, hm, hxm⟩ := unpacked_of_pos hx hq
  rw [div_eq, hxm, unpacked_infinityOf]
  cases s <;> rfl

theorem mul_infinityOf (hx : x.value? = some q) (hq : 0 < q) (s : Sign) :
    x * infinityOf s = infinityOf s := by
  obtain ⟨m, e, hm, hxm⟩ := unpacked_of_pos hx hq
  rw [mul_eq, hxm, unpacked_infinityOf]
  cases s <;> rfl

theorem infinityOf_mul (hx : x.value? = some q) (hq : 0 < q) (s : Sign) :
    infinityOf s * x = infinityOf s := by
  obtain ⟨m, e, hm, hxm⟩ := unpacked_of_pos hx hq
  rw [mul_eq, hxm, unpacked_infinityOf]
  cases s <;> rfl

theorem isNaN_infinityOf_add_iff (s t : Sign) :
    (infinityOf s + infinityOf t).isNaN = true ↔ t = -s := by
  cases s <;> cases t
  · exact iff_of_false (by decide) nofun
  · exact iff_of_true (by decide) rfl
  · exact iff_of_true (by decide) rfl
  · exact iff_of_false (by decide) nofun

theorem isNaN_infinityOf_div (s t : Sign) : (infinityOf s / infinityOf t).isNaN = true := by
  cases s <;> cases t <;> decide

/-- A sum is NaN only where infinities of different signs are added. -/
theorem isNaN_add_iff (hx : x.isNaN = false) (hy : y.isNaN = false) :
    (x + y).isNaN = true ↔ ∃ s, x = infinityOf s ∧ y = infinityOf (-s) := by
  rcases x.cases with hnan | ⟨s, rfl⟩ | ⟨p, hp⟩
  · rw [hx] at hnan
    cases hnan
  · rcases y.cases with hnan | ⟨t, rfl⟩ | ⟨q, hq⟩
    · rw [hy] at hnan
      cases hnan
    · simpa only [infinityOf_injective.eq_iff, exists_eq_left'] using isNaN_infinityOf_add_iff s t
    · rw [infinityOf_add hq, isNaN_infinityOf]
      refine iff_of_false (by simp) fun ⟨t, _, ht⟩ => ?_
      simp [ht] at hq
  · refine iff_of_false ?_ fun ⟨t, ht, _⟩ => ?_
    · rcases y.cases with hnan | ⟨t, rfl⟩ | ⟨q, hq⟩
      · rw [hy] at hnan
        cases hnan
      · simp [add_infinityOf hp]
      · simp [(rounds_add hp hq).isNaN]
    · simp [ht] at hp

theorem isNaN_packed_round (s : Sign) (m : ℕ) (e : ℤ) (a : Accuracy) :
    (packed (roundWithAccuracy Format.binary64 s m e a)).isNaN = false := by
  rw [roundWithAccuracy_eq]
  simp only
  split_ifs
  · exact isNaN_of_value? (value?_packed_zero s)
  · rw [← Bool.not_eq_true, isNaN_iff_unpacked, unpacked_packed]
    exact unpack_pack_finite_ne _ _ _ _

/-- A product of finite numbers may be out of range, but is not NaN. -/
theorem isNaN_mul (hx : x.value? = some p) (hy : y.value? = some q) : (x * y).isNaN = false := by
  rw [mul_eq]
  rcases value?_cases hx with ⟨s, hxs, -⟩ | ⟨s, m, e, hm, hxs, -⟩ <;>
    rcases value?_cases hy with ⟨t, hyt, -⟩ | ⟨t, n, f, hn, hyt, -⟩ <;> rw [hxs, hyt]
  · exact isNaN_of_value? (value?_packed_zero (s * t))
  · exact isNaN_of_value? (value?_packed_zero (s * t))
  · exact isNaN_of_value? (value?_packed_zero (s * t))
  · exact isNaN_packed_round _ _ _ _

theorem isNaN_div (hx : x.value? = some p) (hy : y.value? = some q) (hq : q ≠ 0) :
    (x / y).isNaN = false := by
  rw [div_eq]
  rcases value?_cases hy with ⟨t, -, rfl⟩ | ⟨t, n, f, hn, hyt, -⟩
  · exact absurd rfl hq
  rcases value?_cases hx with ⟨s, hxs, -⟩ | ⟨s, m, e, hm, hxs, -⟩ <;> rw [hxs, hyt]
  · exact isNaN_of_value? (value?_packed_zero (s / t))
  · exact isNaN_packed_round _ _ _ _

theorem isNaN_packed_notANumber : (packed .notANumber).isNaN = true := by decide

theorem isNaN_mul_of_isNaN (hx : x.isNaN = true) (y : Double) : (x * y).isNaN = true := by
  rw [mul_eq, isNaN_iff_unpacked.mp hx]
  cases y.unpacked <;> exact isNaN_packed_notANumber

theorem isNaN_sub_of_isNaN (h : x.isNaN = true ∨ y.isNaN = true) : (x - y).isNaN = true := by
  rw [sub_eq]
  rcases h with hx | hy
  · rw [isNaN_iff_unpacked.mp hx]
    cases y.unpacked <;> exact isNaN_packed_notANumber
  · rw [isNaN_iff_unpacked.mp hy]
    cases x.unpacked <;> exact isNaN_packed_notANumber

theorem isNaN_div_of_isNaN (h : x.isNaN = true ∨ y.isNaN = true) : (x / y).isNaN = true := by
  rw [div_eq]
  rcases h with hx | hy
  · rw [isNaN_iff_unpacked.mp hx]
    cases y.unpacked <;> exact isNaN_packed_notANumber
  · rw [isNaN_iff_unpacked.mp hy]
    cases x.unpacked <;> exact isNaN_packed_notANumber

theorem isNaN_infinityOf_sub (s : Sign) : (infinityOf s - infinityOf s).isNaN = true := by
  cases s <;> decide

theorem value?_infinityOf_sub (s t : Sign) : (infinityOf s - infinityOf t).value? = none := by
  cases s <;> cases t <;> decide

/-- Only finite numbers that are equal have no distance. -/
theorem value?_sub_eq_zero_iff (hx : x.isNaN = false) (hy : y.isNaN = false) :
    (x - y).value? = some 0 ↔ ∃ q, x.value? = some q ∧ y.value? = some q := by
  rcases x.cases with hnan | ⟨s, rfl⟩ | ⟨p, hp⟩
  · rw [hx] at hnan
    cases hnan
  · rcases y.cases with hnan | ⟨t, rfl⟩ | ⟨q, hq⟩
    · rw [hy] at hnan
      cases hnan
    · simp [value?_infinityOf_sub]
    · simp [infinityOf_sub hq]
  · rcases y.cases with hnan | ⟨t, rfl⟩ | ⟨q, hq⟩
    · rw [hy] at hnan
      cases hnan
    · simp [sub_infinityOf hp]
    · rw [(rounds_sub hp hq).value?_eq_zero_iff, hp, hq, sub_eq_zero]
      simp [eq_comm]

/-! ## Truncation -/

theorem truncate_eq (x : Double) :
    x.truncate = (UInt64.ofNatClamp (x.unpacked.toInt 0 (UInt64.size - 1)).toNat).toNat := rfl

theorem truncate_of_isNaN (h : x.isNaN = true) : x.truncate = 0 := by
  rw [truncate_eq, isNaN_iff_unpacked.mp h]
  rfl

theorem toNat_ofNatClamp (h : n < 2 ^ 64) : (UInt64.ofNatClamp n).toNat = n := by
  rw [UInt64.ofNatClamp, dif_pos (by exact h), UInt64.toNat_ofNatLT]

/-- Half of a mantissa is dropped for every bit behind the point. -/
theorem roundToInt_eq (m : ℕ) (e : ℤ) :
    roundToInt .positive m e = (m * 2 ^ e.toNat / 2 ^ (-e).toNat : ℕ) := by
  have hup : (e - 0).toNat = e.toNat := by omega
  have hdown : (0 - (e - e.toNat)).toNat = (-e).toNat := by omega
  simp only [roundToInt, decreaseExponent, shiftToExponent, mantissa_shiftRight,
    mantissa_ofMantissaAndAccuracy, hup, hdown, Nat.shiftLeft_eq, Sign.apply]

theorem roundToInt_of_eq (h : (m : ℚ) * 2 ^ e = n) : roundToInt .positive m e = n := by
  rw [roundToInt_eq]
  rcases le_total 0 e with he | he
  · obtain ⟨k, rfl⟩ := Int.eq_ofNat_of_zero_le he
    have hn : m * 2 ^ k = n := by exact_mod_cast h
    simp [hn]
  · obtain ⟨k, hk⟩ := Int.eq_ofNat_of_zero_le (neg_nonneg.mpr he)
    obtain rfl : e = -k := by omega
    have hm : m = n * 2 ^ k := by
      rw [zpow_neg, zpow_natCast, ← div_eq_mul_inv, div_eq_iff (by positivity)] at h
      exact_mod_cast h
    simp [hm]

/-- Whole numbers survive truncation. -/
theorem truncate_of_value? (h : x.value? = some (n : ℚ)) (hn : n < 2 ^ 64) : x.truncate = n := by
  have hwhole : x.unpacked.toInt 0 (UInt64.size - 1) = n := by
    rcases value?_cases h with ⟨s, hx, hzero⟩ | ⟨s, m, e, hm, hx, hvalue⟩
    · obtain rfl : n = 0 := by exact_mod_cast hzero
      rw [hx]
      rfl
    · have hpos : (0 : ℚ) < m * 2 ^ e := by positivity
      cases s with
      | positive =>
        rw [hx]
        exact roundToInt_of_eq hvalue.symm
      | negative =>
        have : (0 : ℚ) ≤ n := by positivity
        simp only [Sign.apply, Int.cast_neg, Int.cast_natCast, neg_mul] at hvalue
        linarith
  rw [truncate_eq, hwhole, Int.toNat_natCast, toNat_ofNatClamp hn]

/-! ## Results that are zero -/

theorem value?_sqrt_of_zero (h : x.value? = some 0) : x.sqrt.value? = some 0 := by
  obtain ⟨s, hs⟩ := value?_eq_zero_iff.mp h
  rw [sqrt_eq, hs]
  exact value?_packed_zero s

theorem value?_mul_of_eq_zero (hx : x.value? = some p) (hy : y.value? = some q) (h : p * q = 0) :
    (x * y).value? = some 0 := by
  have := value?_mul (z := zero) hx hy (by rw [h]; exact value?_zero)
  rwa [h] at this

theorem value?_div_of_zero (hx : x.value? = some 0) (hy : y.value? = some q) (hq : q ≠ 0) :
    (x / y).value? = some 0 := by
  have := value?_div (z := zero) hx hy hq (by rw [zero_div]; exact value?_zero)
  rwa [zero_div] at this

theorem value?_max_of_zero (hx : x.value? = some 0) (hy : y.value? = some 0) :
    (x.max y).value? = some 0 := by
  unfold Double.max
  split_ifs <;> assumption

theorem value?_div_infinityOf (hx : x.value? = some q) (s : Sign) :
    (x / infinityOf s).value? = some 0 := by
  rw [div_eq]
  rcases value?_cases hx with ⟨t, ht, -⟩ | ⟨t, m, e, hm, ht, -⟩ <;>
    rw [ht, unpacked_infinityOf] <;> exact value?_packed_zero (t / s)

/-- The magnitude of what is not zero is above zero, whichever zero that is. -/
theorem lt_abs_iff (hz : z.value? = some 0) (hx : x.isNaN = false) :
    z.lt x.abs = true ↔ x.value? ≠ some 0 := by
  obtain ⟨t, ht⟩ := value?_eq_zero_iff.mp hz
  rw [lt_eq_unpacked, ht, abs_eq, unpacked_packed]
  rcases hu : x.unpacked with s | _ | s | ⟨s, m, e, hm⟩
  · refine iff_of_true ?_ ?_
    · cases s <;> cases t <;> decide
    · rw [value?, hu]
      simp [unpackedValue?]
  · rw [isNaN_iff_unpacked.mpr hu] at hx
    cases hx
  · refine iff_of_false ?_ (not_not.mpr (value?_of_zero hu))
    cases s <;> cases t <;> decide
  · obtain ⟨hcanonical, hrange⟩ := isCanonical_of_unpacked hu
    refine iff_of_true ?_ ?_
    · show UnpackedFloat.lt (.zero t)
        (unpack Format.binary64 (pack Format.binary64 (.finite .positive m e hm))) = true
      rw [unpack_pack hcanonical hm, if_pos hrange]
      rfl
    · rw [value?_of_finite hu]
      exact fun h => apply_mul_ne_zero hm e (Option.some.inj h)

end Telemetry.Double
