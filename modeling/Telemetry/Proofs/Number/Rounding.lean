import Mathlib

/-!
# Rounding to fifty-three bits

A result of arithmetic is an exact number, given as a mantissa and an exponent, which is rounded to
the fifty-three bits that a double has for a mantissa. Nothing is lost where the exact number has no
more bits than that, and nothing but zero is rounded to zero when numbers are added or subtracted.

## Main statements

* `round_eq`: a number that a double can hold is rounded to itself.
* `exists_round`: what a sum or a difference is rounded to.
* `unpack_pack`: a rounded number is found again in the bits that it is packed in, unless it is out of
  range, and then infinity is found.
-/
namespace Telemetry.Rounding

open Float.Model (Format UnpackedFloat totalExponent)
open Float.Model.UnpackedFloat

/-- A mantissa and an exponent in the form in which a double holds them: all fifty-three bits are in
use unless the exponent is as small as it can be. -/
structure IsCanonical (m : ℕ) (e : ℤ) : Prop where
  lt : m < 2 ^ 53
  le : -1074 ≤ e
  normal : 2 ^ 52 ≤ m ∨ e = -1074

variable {m n k : ℕ} {e f g : ℤ} {s : Sign}

/-! ## Exponents -/

/-- The exponent to which a positive number is rounded. -/
def target (m : ℕ) (e : ℤ) : ℤ := max ((m.log2 : ℤ) + e - 52) (-1074)

theorem targetExponent_eq (m : ℕ) (e : ℤ) :
    Format.binary64.targetExponent (totalExponent m e) = target m e := by
  simp only [Format.targetExponent, totalExponent, Format.mantissaBits, Format.minExponent, target]
  omega

theorem log2_mul_two_pow (hm : 0 < m) (k : ℕ) : (m * 2 ^ k).log2 = m.log2 + k := by
  obtain ⟨hlo, hhi⟩ := (Nat.log2_eq_iff hm.ne').mp rfl
  rw [Nat.log2_eq_iff (by positivity), Nat.add_right_comm, pow_add, pow_add]
  exact ⟨Nat.mul_le_mul_right _ hlo, Nat.mul_lt_mul_of_pos_right hhi (Nat.two_pow_pos k)⟩

theorem target_mul_two_pow (hm : 0 < m) (e : ℤ) (k : ℕ) : target (m * 2 ^ k) (e - k) = target m e := by
  rw [target, target, log2_mul_two_pow hm]
  push_cast
  omega

theorem IsCanonical.log2_le (h : IsCanonical m e) : m.log2 ≤ 52 := by
  by_cases hm : m = 0
  · simp [hm]
  · have := (Nat.log2_lt hm).mpr h.lt
    omega

theorem IsCanonical.target_le (h : IsCanonical m e) : target m e ≤ e := by
  have hlog := h.log2_le
  have hle := h.le
  rw [target]
  omega

theorem IsCanonical.target_eq (h : IsCanonical m e) (hm : 0 < m) : target m e = e := by
  have hlog := h.log2_le
  have hle := h.le
  rcases h.normal with hnormal | rfl
  · have := (Nat.le_log2 hm.ne').mpr hnormal
    rw [target]
    omega
  · rw [target]
    omega

/-- Only the least exponent leaves a mantissa with fewer than fifty-three bits. -/
theorem isCanonical_of_log2 (hm : 0 < m) (he : e = target m e) : IsCanonical m e := by
  have hbits := (Nat.log2_lt (k := 53) hm.ne').mp
  have hfull := (Nat.le_log2 (k := 52) hm.ne').mp
  rw [target] at he
  refine ⟨hbits (by omega), by omega, ?_⟩
  by_cases hmin : e = -1074
  · exact .inr hmin
  · exact .inl (hfull (by omega))

/-! ## Shifts -/

/-- Shifting a mantissa out by as many bits as were appended to it loses nothing. -/
theorem shiftRight_mul_two_pow (m k : ℕ) :
    ExtendedMantissa.ofMantissaAndAccuracy (m * 2 ^ k) .exact >>> k
      = ExtendedMantissa.ofMantissaAndAccuracy m .exact := by
  induction k generalizing m with
  | zero => simp [HShiftRight.hShiftRight, Nat.repeat]
  | succ k ih =>
    have hstep : m * 2 ^ (k + 1) = m * 2 * 2 ^ k := by ring
    show ExtendedMantissa.shiftRightOne
      (ExtendedMantissa.ofMantissaAndAccuracy (m * 2 ^ (k + 1)) .exact >>> k) = _
    rw [hstep, ih]
    simp [ExtendedMantissa.shiftRightOne, ExtendedMantissa.ofMantissaAndAccuracy]

theorem mantissa_shiftRight (em : ExtendedMantissa) (k : ℕ) :
    (em >>> k).mantissa = em.mantissa / 2 ^ k := by
  induction k with
  | zero => simp [HShiftRight.hShiftRight, Nat.repeat]
  | succ k ih =>
    show (em >>> k).mantissa / 2 = _
    rw [ih, Nat.div_div_eq_div_mul, pow_succ]

theorem mantissa_ofMantissaAndAccuracy (m : ℕ) (a : Accuracy) :
    (ExtendedMantissa.ofMantissaAndAccuracy m a).mantissa = m := by
  rcases a with _ | _ | _ | _ <;> rfl

theorem le_roundedMantissa (em : ExtendedMantissa) :
    em.mantissa ≤ em.roundedMantissa ∧ em.roundedMantissa ≤ em.mantissa + 1 := by
  rcases em with ⟨m, _ | _, _ | _⟩ <;>
    simp [ExtendedMantissa.roundedMantissa, ExtendedMantissa.accuracy, Accuracy.roundToNearestEven]
  omega

theorem shiftToTargetExponent_eq (m : ℕ) (e : ℤ) (a : Accuracy) :
    shiftToTargetExponent Format.binary64 m e a
      = (ExtendedMantissa.ofMantissaAndAccuracy m a >>> (target m e - e).toNat,
        e + (target m e - e).toNat) := by
  rw [shiftToTargetExponent, targetExponent_eq]
  rfl

theorem shiftToTargetExponent_of_le (h : target m e ≤ e) (a : Accuracy) :
    shiftToTargetExponent Format.binary64 m e a
      = (ExtendedMantissa.ofMantissaAndAccuracy m a, e) := by
  have hshift : (target m e - e).toNat = 0 := by omega
  rw [shiftToTargetExponent_eq, hshift]
  simp [HShiftRight.hShiftRight, Nat.repeat]

/-! ## Rounding -/

theorem roundWithAccuracy_eq (s : Sign) (m : ℕ) (e : ℤ) (a : Accuracy) :
    roundWithAccuracy Format.binary64 s m e a =
      let first := shiftToTargetExponent Format.binary64 m e a
      let last := shiftToTargetExponent Format.binary64 first.1.roundedMantissa first.2 .exact
      if h : last.1.mantissa = 0 then .zero s
      else .finite s last.1.mantissa last.2 (Nat.pos_of_ne_zero h) := rfl

/-- A number that a double can hold is rounded to itself. -/
theorem roundWithAccuracy_mul_two_pow (h : IsCanonical m e) (hm : 0 < m) (s : Sign) (k : ℕ) :
    roundWithAccuracy Format.binary64 s (m * 2 ^ k) (e - k) .exact = .finite s m e hm := by
  have hshift : (e - (e - k)).toNat = k := by omega
  have hexponent : e - k + (k : ℕ) = e := by omega
  rw [roundWithAccuracy_eq, shiftToTargetExponent_eq, target_mul_two_pow hm, h.target_eq hm, hshift,
    shiftRight_mul_two_pow, hexponent]
  show (let last := shiftToTargetExponent Format.binary64 m e .exact
    if h : last.1.mantissa = 0 then UnpackedFloat.zero s
    else .finite s last.1.mantissa last.2 (Nat.pos_of_ne_zero h)) = _
  rw [shiftToTargetExponent_of_le h.target_le]
  simp [mantissa_ofMantissaAndAccuracy, hm.ne']

/-- What is left of a mantissa when it is shifted to the exponent that it is rounded to. -/
theorem isCanonical_div (hm : 0 < m) (he : -1074 ≤ e) (hk : e + k = target m e) :
    0 < m / 2 ^ k ∧ IsCanonical (m / 2 ^ k) (target m e) := by
  obtain ⟨hlo, hhi⟩ := (Nat.log2_eq_iff hm.ne').mp rfl
  by_cases hmin : target m e = -1074
  · have hzero : k = 0 := by omega
    have hlog : m.log2 < 53 := by rw [target] at hmin; omega
    rw [hzero, pow_zero, Nat.div_one, hmin]
    exact ⟨hm, (Nat.log2_lt hm.ne').mp hlog, le_rfl, .inr rfl⟩
  · have hlog : m.log2 = 52 + k := by rw [target] at hk hmin; omega
    rw [hlog, pow_add] at hlo
    rw [hlog, Nat.add_right_comm, pow_add] at hhi
    have hfull : 2 ^ 52 ≤ m / 2 ^ k := (Nat.le_div_iff_mul_le (Nat.two_pow_pos k)).mpr hlo
    exact ⟨by omega, (Nat.div_lt_iff_lt_mul (Nat.two_pow_pos k)).mpr hhi, le_max_right _ _, .inl hfull⟩

theorem shiftToTargetExponent_two_pow (he : -1074 ≤ e) :
    shiftToTargetExponent Format.binary64 (2 ^ 53) e .exact
      = (ExtendedMantissa.ofMantissaAndAccuracy (2 ^ 52) .exact, e + 1) := by
  have htarget : target (2 ^ 53) e = e + 1 := by
    rw [target, Nat.log2_two_pow]
    omega
  have hshift : (e + 1 - e).toNat = 1 := by omega
  rw [shiftToTargetExponent_eq, htarget, hshift]
  exact congrArg (Prod.mk · _) (shiftRight_mul_two_pow (2 ^ 52) 1)

/-- What a number that is not too small is rounded to. Rounding up may need one more bit, which is
then made up for by the exponent. -/
theorem exists_roundWithAccuracy (hm : 0 < m) (he : -1074 ≤ e) (hle : e ≤ target m e) (s : Sign)
    (a : Accuracy) :
    ∃ n f, ∃ hn : 0 < n, roundWithAccuracy Format.binary64 s m e a = .finite s n f hn ∧
      IsCanonical n f ∧ target m e ≤ f ∧ f ≤ target m e + 1 := by
  obtain ⟨k, hk⟩ := Int.eq_ofNat_of_zero_le (sub_nonneg.mpr hle)
  have hexponent : e + (k : ℕ) = target m e := by omega
  obtain ⟨hpos, hcanonical⟩ := isCanonical_div hm he hexponent
  obtain ⟨em, hem⟩ : ∃ em, em = ExtendedMantissa.ofMantissaAndAccuracy m a >>> k := ⟨_, rfl⟩
  have hfloor : em.mantissa = m / 2 ^ k := by
    rw [hem, mantissa_shiftRight, mantissa_ofMantissaAndAccuracy]
  obtain ⟨hlo, hhi⟩ := le_roundedMantissa em
  have hlt := hcanonical.lt
  rw [roundWithAccuracy_eq, shiftToTargetExponent_eq, hk, Int.toNat_natCast, ← hem, hexponent]
  by_cases hsmall : em.roundedMantissa < 2 ^ 53
  · have hround : IsCanonical em.roundedMantissa (target m e) :=
      ⟨hsmall, hcanonical.le, hcanonical.normal.imp_left (by omega)⟩
    refine ⟨em.roundedMantissa, target m e, by omega, ?_, hround, le_rfl, by omega⟩
    simp only [shiftToTargetExponent_of_le hround.target_le, mantissa_ofMantissaAndAccuracy]
    rw [dif_neg (by omega)]
  · have hcarry : em.roundedMantissa = 2 ^ 53 := by omega
    refine ⟨2 ^ 52, target m e + 1, by omega, ?_, ⟨by omega, ?_, .inl le_rfl⟩, by omega, le_rfl⟩
    · simp only [hcarry, shiftToTargetExponent_two_pow hcanonical.le, mantissa_ofMantissaAndAccuracy]
      rw [dif_neg (by omega)]
    · have := hcanonical.le
      omega

/-- A number is first given enough bits, and then rounded. -/
theorem round_eq_roundWithAccuracy (s : Sign) (m : ℕ) (e : ℤ) :
    UnpackedFloat.round Format.binary64 s m e
      = roundWithAccuracy Format.binary64 s (m * 2 ^ (e - target m e).toNat)
          (e - (e - target m e).toNat) .exact := by
  simp only [UnpackedFloat.round, targetExponent_eq, decreaseExponent, Nat.shiftLeft_eq]

theorem exists_round (hm : 0 < m) (he : -1074 ≤ e) (s : Sign) :
    ∃ n f, ∃ hn : 0 < n, UnpackedFloat.round Format.binary64 s m e = .finite s n f hn ∧
      IsCanonical n f ∧ target m e ≤ f ∧ f ≤ target m e + 1 := by
  obtain ⟨k, hk⟩ : ∃ k, k = (e - target m e).toNat := ⟨_, rfl⟩
  have hmin : -1074 ≤ target m e := le_max_right _ _
  have htarget := target_mul_two_pow hm e k
  obtain ⟨n, f, hn, hround, hcanonical, hlo, hhi⟩ :=
    exists_roundWithAccuracy (m := m * 2 ^ k) (e := e - k) (by positivity) (by omega) (by omega) s .exact
  rw [round_eq_roundWithAccuracy, ← hk]
  exact ⟨n, f, hn, hround, hcanonical, by omega, by omega⟩

/-! ## Exact numbers -/

theorem two_zpow_add (e : ℤ) (k : ℕ) : (2 : ℚ) ^ (e + k) = 2 ^ k * 2 ^ e := by
  rw [zpow_add₀ two_ne_zero, zpow_natCast, mul_comm]

/-- Of two ways to write a number, the one with the smaller exponent has the longer mantissa. -/
theorem eq_mul_two_pow (h : (n : ℚ) * 2 ^ f = m * 2 ^ (f + k)) : n = m * 2 ^ k := by
  rw [two_zpow_add, ← mul_assoc] at h
  exact_mod_cast mul_right_cancel₀ (zpow_ne_zero f two_ne_zero) h

/-- A number that a double can hold is rounded to itself, however it is written. -/
theorem round_eq (h : IsCanonical m e) (hm : 0 < m) (heq : (n : ℚ) * 2 ^ f = m * 2 ^ e) (s : Sign) :
    UnpackedFloat.round Format.binary64 s n f = .finite s m e hm := by
  rcases le_total f e with hle | hle
  · obtain ⟨k, rfl⟩ := Int.le.dest hle
    have hmantissa : n = m * 2 ^ k := eq_mul_two_pow heq
    have htarget : target n f = f + k := by
      have := target_mul_two_pow hm (f + k) k
      rw [add_sub_cancel_right, h.target_eq hm] at this
      rw [hmantissa, this]
    have hshift : (f - target n f).toNat = 0 := by omega
    rw [round_eq_roundWithAccuracy, hshift, pow_zero, mul_one, hmantissa]
    simpa using roundWithAccuracy_mul_two_pow h hm s k
  · obtain ⟨k, rfl⟩ := Int.le.dest hle
    have hmantissa : m = n * 2 ^ k := eq_mul_two_pow heq.symm
    have hn : 0 < n := Nat.pos_of_mul_pos_right (hmantissa ▸ hm)
    have htarget : target n (e + k) = e := by
      rw [← target_mul_two_pow hn _ k, ← hmantissa, add_sub_cancel_right, h.target_eq hm]
    have hshift : (e + k - target n (e + k)).toNat = k := by omega
    rw [round_eq_roundWithAccuracy, hshift, ← hmantissa]
    simpa using roundWithAccuracy_mul_two_pow h hm s 0

/-- A number is in the form of a double in one way only. -/
theorem IsCanonical.eq_of_eq (h : IsCanonical m e) (h' : IsCanonical n f) (hm : 0 < m)
    (heq : (n : ℚ) * 2 ^ f = m * 2 ^ e) : n = m ∧ f = e := by
  have hn : 0 < n := by
    have : (0 : ℚ) < n * 2 ^ f := heq ▸ by positivity
    exact_mod_cast pos_of_mul_pos_left this (by positivity)
  have hround := (round_eq h' hn rfl .positive).symm.trans (round_eq h hm heq .positive)
  simpa using hround

/-! ## Exact products and quotients -/

/-- An exact product has no bits below those of its factors. -/
theorem add_le_of_mul_eq (hm : IsCanonical m e) (hn : IsCanonical n f)
    (hk : IsCanonical k g) (hmpos : 0 < m) (hnpos : 0 < n)
    (heq : (k : ℚ) * 2 ^ g = (m * n : ℕ) * 2 ^ (e + f)) : e + f ≤ g := by
  by_contra hlt
  obtain ⟨j, hj⟩ := Int.le.dest (not_le.mp hlt : g + 1 ≤ e + f)
  have hlong : k = m * n * 2 ^ (j + 1) := by
    refine eq_mul_two_pow (f := g) ?_
    rw [heq]
    congr 2
    push_cast
    omega
  have htwice : m * n * 2 ≤ k := by
    rw [hlong]
    exact Nat.mul_le_mul_left _ (by rw [pow_succ]; have := Nat.two_pow_pos j; omega)
  have hshort := hk.lt
  rcases hm.normal with hfull | he
  · have := Nat.mul_le_mul hfull hnpos
    omega
  rcases hn.normal with hfull | hf
  · have := Nat.mul_le_mul hmpos hfull
    omega
  have := hk.le
  omega

theorem log2_mul_le (m n : ℕ) : (m * n).log2 ≤ m.log2 + n.log2 + 1 := by
  by_cases hzero : m * n = 0
  · simp [hzero]
  · have hm := Nat.lt_log2_self (n := m)
    have hn := Nat.lt_log2_self (n := n)
    have hbits : m * n < 2 ^ (m.log2 + n.log2 + 2) := calc
      m * n < 2 ^ (m.log2 + 1) * 2 ^ (n.log2 + 1) := Nat.mul_lt_mul_of_lt_of_lt hm hn
      _ = 2 ^ (m.log2 + n.log2 + 2) := by rw [← pow_add]; ring_nf
    have := (Nat.log2_lt hzero).mpr hbits
    omega

/-- Equal numbers have equally many bits above the point. -/
theorem log2_add_eq (hm : 0 < m) (hn : 0 < n) (h : (m : ℚ) * 2 ^ e = n * 2 ^ f) :
    (m.log2 : ℤ) + e = n.log2 + f := by
  wlog hle : e ≤ f generalizing m n e f
  · exact (this hn hm h.symm (by omega)).symm
  · obtain ⟨k, rfl⟩ := Int.le.dest hle
    rw [eq_mul_two_pow h, log2_mul_two_pow hn]
    push_cast
    ring

/-- Where a quotient is exact, enough bits are taken of it to leave no remainder. -/
theorem exists_divCore_eq (hcanonical : IsCanonical k g) (hk : 0 < k) (hm : 0 < m)
    (hn : 0 < n) (h : (m : ℚ) * 2 ^ e = (k * n : ℕ) * 2 ^ (g + f)) :
    ∃ j : ℕ, divCore Format.binary64 m e n f = (k * 2 ^ j, g - j, .exact) := by
  obtain ⟨T, hT⟩ : ∃ T, T = min (e - f)
      (Format.binary64.targetExponent (totalExponent m e - totalExponent n f)) := ⟨_, rfl⟩
  have hle : T ≤ g := by
    have hlog := log2_add_eq hm (Nat.mul_pos hk hn) h
    have hproduct := log2_mul_le k n
    have hbits := hcanonical.log2_le
    have hmin := hcanonical.le
    simp only [Format.targetExponent, totalExponent, Format.mantissaBits, Format.minExponent] at hT
    omega
  obtain ⟨j, rfl⟩ := Int.le.dest hle
  obtain ⟨i, hi⟩ := Int.le.dest (hT ▸ min_le_left _ _ : T ≤ e - f)
  obtain rfl : e = f + T + i := by omega
  have hmantissa : m * 2 ^ i = k * 2 ^ j * n := by
    have hexponent : T + j + f = f + T + j := by ring
    rw [hexponent, two_zpow_add, two_zpow_add, ← mul_assoc, ← mul_assoc] at h
    have := mul_right_cancel₀ (zpow_ne_zero _ two_ne_zero) h
    rw [mul_right_comm]
    exact_mod_cast this
  refine ⟨j, ?_⟩
  have hshift : (f + T + i - f - T).toNat = i := by omega
  simp only [divCore, ← hT, hshift, Nat.shiftLeft_eq, hmantissa, Nat.mul_div_cancel _ hn,
    Nat.mul_mod_left, accuracyOfFraction, add_sub_cancel_right]
  rfl

/-! ## Packing -/

theorem toNat_one_append (y : BitVec 52) : (1#1 ++ y).toNat = 2 ^ 52 + y.toNat := by
  rw [BitVec.toNat_append, ← Nat.shiftLeft_add_eq_or_of_lt y.isLt]
  rfl

/-- The sign, the exponent and the fraction of a pattern, and what it stands for. -/
theorem unpack_packComponents (s : Sign) (x : BitVec 11) (y : BitVec 52) :
    unpack Format.binary64 (packComponents Format.binary64 s x y)
      = if x.toNat = 2047 then if y.toNat = 0 then .infinity s else .notANumber
        else if x.toNat = 0 then if h : y.toNat = 0 then .zero s
          else .finite s y.toNat (-1074) (Nat.pos_of_ne_zero h)
        else .finite s (2 ^ 52 + y.toNat) (x.toNat - 1075) (by omega) := by
  have hmax : x = -1#_ ↔ x.toNat = 2047 := by rw [← BitVec.toNat_inj]; rfl
  have hmin : x = 0#_ ↔ x.toNat = 0 := by rw [← BitVec.toNat_inj]; rfl
  have hzero : y = 0#_ ↔ y.toNat = 0 := by rw [← BitVec.toNat_inj]; rfl
  simp only [unpack, unpackMantissa_packComponents, unpackExponent_packComponents,
    unpackSign_packComponents, Sign.ofBitVec_toBitVec, hmax, hmin, hzero, toNat_one_append]
  split_ifs with h1 h2 h3
  · rfl
  · rfl
  · rfl
  · simp only [h3]
    rfl
  · rfl

theorem pack_finite (s : Sign) (m : ℕ) (e : ℤ) (hm : 0 < m) :
    pack Format.binary64 (.finite s m e hm)
      = if 971 < e then packComponents Format.binary64 s 2047#11 0#52
        else if m.log2 = 52 then
          packComponents Format.binary64 s (.ofNat 11 (e + 1075).toNat) (.ofNat 52 m)
        else packComponents Format.binary64 s 0#11 (.ofNat 52 m) := by
  have hbias : e + 1023 + 52 = e + 1075 := by ring
  have hrange : 2 ^ 11 ≤ (e + 1075).toNat + 1 ↔ 971 < e := by omega
  have hfull : m.log2 + 1 = 53 ↔ m.log2 = 52 := by omega
  show (if 2 ^ 11 ≤ (e + 1023 + 52).toNat + 1 then packComponents Format.binary64 s (-1#_) 0
    else if m.log2 + 1 = 53 then
      packComponents Format.binary64 s (.ofNat 11 (e + 1023 + 52).toNat) (.ofNat 52 m)
    else packComponents Format.binary64 s 0#11 (.ofNat 52 m)) = _
  simp only [hbias, hrange, hfull]
  rfl

/-- No number is packed as NaN, in whatever form it is. -/
theorem unpack_pack_finite_ne (s : Sign) (m : ℕ) (e : ℤ) (hm : 0 < m) :
    unpack Format.binary64 (pack Format.binary64 (.finite s m e hm)) ≠ .notANumber := by
  rw [pack_finite]
  by_cases hrange : 971 < e
  · rw [if_pos hrange, unpack_packComponents]
    simp
  · have hexponent : (BitVec.ofNat 11 (e + 1075).toNat).toNat ≠ 2047 := by
      rw [BitVec.toNat_ofNat]
      omega
    rw [if_neg hrange]
    split_ifs <;> rw [unpack_packComponents]
    · rw [if_neg hexponent]
      split_ifs <;> simp
    · simp only [BitVec.toNat_ofNat, Nat.zero_mod, OfNat.zero_ne_ofNat, ↓reduceIte]
      split_ifs <;> simp

/-- A rounded number is found again in its bits, and infinity in the bits of one that is out of
range. -/
theorem unpack_pack (h : IsCanonical m e) (hm : 0 < m) (s : Sign) :
    unpack Format.binary64 (pack Format.binary64 (.finite s m e hm))
      = if e ≤ 971 then .finite s m e hm else .infinity s := by
  have hle := h.le
  have hlt := h.lt
  rw [pack_finite]
  by_cases hrange : 971 < e
  · rw [if_pos hrange, if_neg hrange.not_ge, unpack_packComponents]
    rfl
  · rw [if_neg hrange, if_pos (not_lt.mp hrange)]
    by_cases hfull : m.log2 = 52
    · have hlow : 2 ^ 52 ≤ m := (Nat.le_log2 hm.ne').mp hfull.ge
      have hexponent : (BitVec.ofNat 11 (e + 1075).toNat).toNat = (e + 1075).toNat :=
        Nat.mod_eq_of_lt (by omega)
      have hmantissa : (BitVec.ofNat 52 m).toNat = m - 2 ^ 52 := by
        rw [BitVec.toNat_ofNat]
        omega
      rw [if_pos hfull, unpack_packComponents, hexponent, if_neg (by omega), if_neg (by omega)]
      simp only [UnpackedFloat.finite.injEq, true_and]
      omega
    · have hsmall : m < 2 ^ 52 := by
        have := h.log2_le
        exact (Nat.log2_lt hm.ne').mp (by omega)
      have hmin : e = -1074 := h.normal.resolve_left (by omega)
      have hmantissa : (BitVec.ofNat 52 m).toNat = m := Nat.mod_eq_of_lt hsmall
      rw [if_neg hfull, unpack_packComponents]
      simp [hmantissa, hm.ne', hmin]

/-- Only NaN has bits that are not found again. -/
theorem pack_unpack_cases (b : BitVec Format.binary64.numBits) :
    pack Format.binary64 (unpack Format.binary64 b) = b ∨
      unpack Format.binary64 b = .notANumber ∧
        pack Format.binary64 (unpack Format.binary64 b) = packedNaN Format.binary64 := by
  by_cases hnan : isNaNBits b = true
  · have hbits : unpackExponent b = -1#_ ∧ unpackMantissa b ≠ 0#_ := by simpa [isNaNBits] using hnan
    refine .inr ⟨by simp [unpack, hbits], ?_⟩
    rw [pack_unpack, if_pos hnan]
  · rw [pack_unpack, if_neg hnan]
    exact .inl rfl

/-- What is found in bits is found again when it is packed. -/
theorem unpack_pack_unpack (b : BitVec Format.binary64.numBits) :
    unpack Format.binary64 (pack Format.binary64 (unpack Format.binary64 b))
      = unpack Format.binary64 b := by
  rcases pack_unpack_cases b with hpack | ⟨hnan, hpack⟩
  · rw [hpack]
  · rw [hpack, unpack_packedNaN, hnan]

/-- What is found in bits is in the form of a double. -/
theorem isCanonical_of_unpack {b : BitVec Format.binary64.numBits} {hm : 0 < m}
    (h : unpack Format.binary64 b = .finite s m e hm) : IsCanonical m e ∧ e ≤ 971 := by
  rw [← packComponents_unpackSign_unpackExponent_unpackMantissa b, unpack_packComponents] at h
  have hx : (unpackExponent b).toNat < 2 ^ 11 := (unpackExponent b).isLt
  have hy : (unpackMantissa b).toNat < 2 ^ 52 := (unpackMantissa b).isLt
  split_ifs at h with hmax hzero hmin hzero
  · cases h
    exact ⟨⟨by omega, by omega, .inr rfl⟩, by omega⟩
  · cases h
    exact ⟨⟨by omega, by omega, .inl (by omega)⟩, by omega⟩

end Telemetry.Rounding
