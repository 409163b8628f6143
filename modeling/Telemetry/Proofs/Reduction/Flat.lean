import Telemetry.Proofs.Number.Arithmetic
import Telemetry.Reduction.Value
import Mathlib

/-!
# Windows of one value

A window whose values are all the same has the same verdict for each of them: none stands out, or all
do. None should, but what is compared with the value is the mean of the others as it comes out of
rounded arithmetic, and where the deviation is zero the least difference is too much.

## Main definitions

* `Statistics.meanOfOthers`: the mean that a value is compared with.
* `Statistics.HasMultiples`: a value whose sums are exact.

## Main statements

* `Statistics.isOutlier_iff_of_exact_mean`, `Statistics.isOutlier_of_infinite_mean`: the verdict on a
  value that all others are equal to.
* `Statistics.outliers_of_flat`: when a window of one value has no outliers.
-/
namespace Telemetry.Statistics

open Double

variable {window : List Sample} {v mean count squares : Double} {p q c d : ℚ} {n : ℕ}
  {numbers : List Double}

/-- The mean of the values but one, given the number of all values and their mean. -/
def meanOfOthers (count mean value : Double) : Double :=
  (count * mean - value) / (count - .ofNat 1)

/-- Whether every sum of up to `n` times a finite value can be held by a double. -/
def HasMultiples (v : Double) (n : ℕ) : Prop :=
  ∃ q, v.value? = some q ∧ ∀ k ≤ n, ∃ x : Double, x.value? = some (k * q)

/-! ## Sums -/

theorem sumOf_append_singleton (numbers : List Double) (x : Double) :
    sumOf (numbers ++ [x]) = sumOf numbers + x := List.foldl_append

theorem value?_sumOf_replicate (hv : v.value? = some q)
    (hmultiples : ∀ k ≤ n, ∃ x : Double, x.value? = some (k * q)) :
    (sumOf (List.replicate n v)).value? = some (n * q) := by
  induction n with
  | zero =>
    rw [Nat.cast_zero, zero_mul]
    exact value?_negativeZero
  | succ n ih =>
    have hsum := ih fun k hk => hmultiples k (by omega)
    obtain ⟨x, hx⟩ := hmultiples (n + 1) le_rfl
    have hnext : ((n + 1 : ℕ) : ℚ) * q = n * q + q := by push_cast; ring
    rw [hnext] at hx ⊢
    rw [List.replicate_succ', sumOf_append_singleton]
    exact (rounds_add hsum hv).value?_of_value? hx

theorem value?_sumOf_of_zeros (h : ∀ x ∈ numbers, x.value? = some 0) :
    (sumOf numbers).value? = some 0 := by
  induction numbers using List.reverseRecOn with
  | nil => exact value?_negativeZero
  | append_singleton numbers x ih =>
    obtain ⟨hnumbers, hx⟩ := List.forall_mem_append.mp h
    rw [sumOf_append_singleton]
    exact (rounds_add (ih hnumbers) (hx x (by simp))).value?_eq_zero_iff.mpr (add_zero 0)

theorem sumOf_replicate_infinity (hn : 0 < n) :
    sumOf (List.replicate n infinity) = infinity := by
  induction n, hn using Nat.le_induction with
  | base => decide
  | succ n hn ih =>
    rw [List.replicate_succ', sumOf_append_singleton, ih]
    decide

/-- A sum of finite numbers may leave the range, but then it stays at one infinity. -/
theorem isNaN_sumOf (h : ∀ x ∈ numbers, ∃ q, x.value? = some q) : (sumOf numbers).isNaN = false := by
  induction numbers using List.reverseRecOn with
  | nil => decide
  | append_singleton numbers x ih =>
    obtain ⟨hnumbers, hx⟩ := List.forall_mem_append.mp h
    obtain ⟨q, hq⟩ := hx x (by simp)
    rw [sumOf_append_singleton, ← Bool.not_eq_true,
      isNaN_add_iff (ih hnumbers) (isNaN_of_value? hq)]
    rintro ⟨s, -, rfl⟩
    simp at hq

/-! ## The verdict -/

/-- Numbers that count the values, and the values but one, are finite and positive. -/
theorem exists_value?_others (hlo : 2 ≤ n) (hhi : n < 2 ^ 64) :
    ∃ c d, (Double.ofNat n).value? = some c ∧ 0 < c ∧
      (Double.ofNat n - .ofNat 1).value? = some d ∧ 0 < d := by
  obtain ⟨c, hc, hone, hrange⟩ := exists_value?_ofNat hlo hhi
  have hround := rounds_sub hc (value?_ofNat (n := 1) (by omega))
  rw [Nat.cast_one] at hround
  obtain ⟨d, hd, hpos⟩ := hround.exists_pos (sub_pos.mpr hone) ((sub_le_self c zero_le_one).trans_lt hrange)
  exact ⟨c, d, hc, by linarith, hd, hpos⟩

theorem isNaN_meanOfOthers (hcount : count.value? = some c)
    (hothers : (count - .ofNat 1).value? = some d) (hd : 0 < d) (hmean : mean.value? = some p)
    (hv : v.value? = some q) : (meanOfOthers count mean v).isNaN = false := by
  have hrest : (count * mean - v).isNaN = false := by
    rcases (count * mean).cases with hnan | ⟨s, hs⟩ | ⟨r, hr⟩
    · rw [isNaN_mul hcount hmean] at hnan
      cases hnan
    · rw [hs, infinityOf_sub hv, isNaN_infinityOf]
    · exact (rounds_sub hr hv).isNaN
  rcases (count * mean - v).cases with hnan | ⟨s, hs⟩ | ⟨r, hr⟩
  · rw [hrest] at hnan
    cases hnan
  · rw [meanOfOthers, hs, infinityOf_div hothers hd, isNaN_infinityOf]
  · exact isNaN_div hr hothers hd.ne'

/-- With a deviation of zero, everything that is not equal to the mean of the others is an outlier. -/
theorem lt_abs_sub_iff {bound x : Double} (hbound : bound.value? = some 0) (hv : v.value? = some q)
    (hx : x.isNaN = false) : bound.lt (v - x).abs = true ↔ x.eq v = false := by
  rw [← Bool.not_eq_true, eq_swap, eq_iff hv]
  rcases x.cases with hnan | ⟨s, rfl⟩ | ⟨r, hr⟩
  · rw [hx] at hnan
    cases hnan
  · rw [sub_infinityOf hv, lt_abs_iff hbound (isNaN_infinityOf _)]
    simp
  · have hround := rounds_sub hv hr
    rw [lt_abs_iff hbound hround.isNaN, Ne, hround.value?_eq_zero_iff, hr, sub_eq_zero,
      Option.some_inj]
    exact not_congr ⟨Eq.symm, Eq.symm⟩

theorem value?_outlierSigmas : outlierSigmas.value? = some ((3 : ℕ) : ℚ) := value?_ofNat (by omega)

/-- Where the mean is exactly the value, the deviation is zero, and so the mean of the others decides. -/
theorem isOutlier_iff_of_exact_mean (hcount : count.value? = some c)
    (hothers : (count - .ofNat 1).value? = some d) (hd : 0 < d) (hmean : mean.value? = some q)
    (hsquares : squares.value? = some 0) (hv : v.value? = some q) :
    isOutlier count mean squares v = true ↔ (meanOfOthers count mean v).eq v = false := by
  have hdeviation : (v - mean).value? = some 0 :=
    (rounds_sub hv hmean).value?_eq_zero_iff.mpr (sub_self q)
  have hsquare : ((v - mean) * (v - mean)).value? = some 0 :=
    value?_mul_of_eq_zero hdeviation hdeviation (zero_mul 0)
  have hown : ((v - mean) * (v - mean) * count / (count - .ofNat 1)).value? = some 0 :=
    value?_div_of_zero (value?_mul_of_eq_zero hsquare hcount (zero_mul c)) hothers hd.ne'
  have hrest : (squares - (v - mean) * (v - mean) * count / (count - .ofNat 1)).value? = some 0 :=
    (rounds_sub hsquares hown).value?_eq_zero_iff.mpr (sub_zero 0)
  have hsigma := value?_sqrt_of_zero
    (value?_div_of_zero (value?_max_of_zero hrest value?_zero) hothers hd.ne')
  have hbound := value?_mul_of_eq_zero value?_outlierSigmas hsigma (mul_zero _)
  exact lt_abs_sub_iff hbound hv (isNaN_meanOfOthers hcount hothers hd hmean hv)

/-- Where the sum is out of range, every value stands out: the deviation of the others comes out as
zero, and their mean as infinite. -/
theorem isOutlier_of_infinite_mean (s : Float.Model.UnpackedFloat.Sign) (hcount : count.value? = some c)
    (hc : 0 < c) (hothers : (count - .ofNat 1).value? = some d) (hd : 0 < d)
    (hv : v.value? = some q) : isOutlier count (infinityOf s) infinity v = true := by
  have hdeviation : (v - infinityOf s) * (v - infinityOf s) = infinity := by
    rw [sub_infinityOf hv]
    cases s <;> decide
  have hown : (v - infinityOf s) * (v - infinityOf s) * count / (count - .ofNat 1) = infinity := by
    have hproduct : infinity * count = infinity := infinityOf_mul hcount hc .positive
    rw [hdeviation, hproduct]
    exact infinityOf_div hothers hd .positive
  have hmean : meanOfOthers count (infinityOf s) v = infinityOf s := by
    rw [meanOfOthers, mul_infinityOf hcount hc, infinityOf_sub hv, infinityOf_div hothers hd]
  have hrest : (infinity - infinity).max .zero = .zero := by decide
  have hsigma := value?_sqrt_of_zero (value?_div_of_zero value?_zero hothers hd.ne')
  have hbound := value?_mul_of_eq_zero value?_outlierSigmas hsigma (mul_zero _)
  show (outlierSigmas * (((infinity - (v - infinityOf s) * (v - infinityOf s) * count
      / (count - .ofNat 1)).max .zero) / (count - .ofNat 1)).sqrt).lt
    (v - meanOfOthers count (infinityOf s) v).abs = true
  rw [hown, hrest, hmean, lt_abs_sub_iff hbound hv (isNaN_infinityOf s), ← Bool.not_eq_true, eq_swap,
    eq_iff hv]
  simp

/-! ## Windows -/

theorem values_of_flat (hflat : ∀ s ∈ window, s.value = v) :
    values window = List.replicate window.length v :=
  List.eq_replicate_iff.mpr ⟨List.length_map _, List.forall_mem_map.mpr hflat⟩

/-- The squared deviations from the mean, added up. -/
def squaresOf (mean : Double) (window : List Sample) : Double :=
  sumOf ((values window).map fun v => (v - mean) * (v - mean))

/-- All values of such a window have the same verdict. -/
theorem outliers_of_flat_eq (hflat : ∀ s ∈ window, s.value = v) (hlength : 3 ≤ window.length) :
    outliers window =
      if isOutlier (.ofNat window.length) (sum window / .ofNat window.length)
        (squaresOf (sum window / .ofNat window.length) window) v = true
      then values window else [] := by
  have hoften : values window = List.replicate window.length v := values_of_flat hflat
  rw [outliers, if_neg (by omega)]
  show (values window).filter (isOutlier (.ofNat window.length) (sum window / .ofNat window.length)
    (squaresOf (sum window / .ofNat window.length) window)) = _
  rw [hoften, List.filter_replicate]

/-! ## Exact sums -/

/-- A double that is not zero has a multiple that none can hold, of one bit more than it has bits. -/
theorem HasMultiples.le (h : HasMultiples v n) (hv : v.value? ≠ some 0) : n ≤ 2 ^ 53 := by
  obtain ⟨q, hq, hmultiples⟩ := h
  by_contra hlarge
  obtain ⟨x, hx⟩ := hmultiples (2 ^ 53 + 1) (by omega)
  rcases value?_cases hq with ⟨-, -, rfl⟩ | ⟨s, m, e, hm, hvm, rfl⟩
  · exact hv hq
  rcases value?_cases hx with ⟨-, -, hzero⟩ | ⟨t, k, f, hk, hxk, heq⟩
  · exact mul_ne_zero (by positivity) (apply_mul_ne_zero hm e) hzero
  have hlong : 0 < (2 ^ 53 + 1) * m := by positivity
  have hsigned : (s.apply ((2 ^ 53 + 1) * m : ℕ) : ℚ) * 2 ^ e = t.apply k * 2 ^ f := by
    rw [← heq]
    cases s <;> simp [Float.Model.UnpackedFloat.Sign.apply] <;> ring
  obtain ⟨-, hvalue⟩ := eq_of_apply_mul_eq hlong hk hsigned
  have hbits := (isCanonical_of_unpacked hxk).1.lt
  rcases le_total f e with hle | hle
  · obtain ⟨j, rfl⟩ := Int.le.dest hle
    have hk : k = (2 ^ 53 + 1) * m * 2 ^ j := Rounding.eq_mul_two_pow hvalue.symm
    have hone : 1 ≤ m * 2 ^ j := Nat.mul_pos hm (Nat.two_pow_pos j)
    rw [Nat.mul_assoc] at hk
    omega
  · obtain ⟨j, rfl⟩ := Int.le.dest hle
    -- The odd factor has nothing in common with the power of two, so it is a factor of `k`.
    have hk' : (2 ^ 53 + 1) * m = k * 2 ^ j := Rounding.eq_mul_two_pow hvalue
    have hcoprime : Nat.Coprime (2 ^ 53 + 1) (2 ^ j) :=
      Nat.Coprime.pow_right j (by decide)
    have hdvd : 2 ^ 53 + 1 ∣ k := hcoprime.dvd_of_dvd_mul_right ⟨m, hk'.symm⟩
    have := Nat.le_of_dvd hk hdvd
    omega

/-- The mean of an exact sum is exact. -/
theorem value?_div_of_multiple {x y : Double} {k : ℕ} (hk : 0 < k) (hx : x.value? = some (k * q))
    (hy : y.value? = some (k : ℚ)) (hv : v.value? = some q) : (x / y).value? = some q := by
  have hne : (k : ℚ) ≠ 0 := Nat.cast_ne_zero.mpr hk.ne'
  have hquotient : (k : ℚ) * q / k = q := mul_div_cancel_left₀ q hne
  have hdiv := value?_div (z := v) hx hy hne (by rwa [hquotient])
  rwa [hquotient] at hdiv

/-- Where sums are exact, so is every step of the two means. -/
theorem HasMultiples.means_eq (h : HasMultiples v n) (hlo : 2 ≤ n) (hhi : n < 2 ^ 64) :
    (sumOf (List.replicate n v) / .ofNat n).eq v = true ∧
      (meanOfOthers (.ofNat n) (sumOf (List.replicate n v) / .ofNat n) v).eq v = true := by
  obtain ⟨q, hv, hmultiples⟩ := id h
  obtain ⟨c, d, hc, hcpos, hd, hdpos⟩ := exists_value?_others hlo hhi
  have hsum := value?_sumOf_replicate hv hmultiples
  simp only [eq_swap _ v, eq_iff hv]
  by_cases hq : q = 0
  · subst hq
    rw [mul_zero] at hsum
    have hmean := value?_div_of_zero hsum hc hcpos.ne'
    have hrest : (Double.ofNat n * (sumOf (List.replicate n v) / .ofNat n) - v).value? = some 0 :=
      (rounds_sub (value?_mul_of_eq_zero hc hmean (mul_zero c)) hv).value?_eq_zero_iff.mpr (sub_zero 0)
    exact ⟨hmean, value?_div_of_zero hrest hd hdpos.ne'⟩
  · have hn : n ≤ 2 ^ 53 := h.le fun hzero => hq (Option.some.inj (hv.symm.trans hzero))
    obtain ⟨k, rfl⟩ := Nat.exists_eq_add_of_le' (by omega : 1 ≤ n)
    have hcount := value?_ofNat hn
    have hmean := value?_div_of_multiple k.succ_pos hsum hcount hv
    obtain ⟨x, hx⟩ := hmultiples (k + 1) le_rfl
    obtain ⟨y, hy⟩ := hmultiples k (by omega)
    have hproduct := value?_mul hcount hmean hx
    have hrest : ((k + 1 : ℕ) : ℚ) * q - q = k * q := by push_cast; ring
    have hothers : ((k + 1 : ℕ) : ℚ) - (1 : ℕ) = k := by push_cast; ring
    have hnumerator := rounds_sub hproduct hv
    have hdenominator := rounds_sub hcount (value?_ofNat (n := 1) (by omega))
    rw [hrest] at hnumerator
    rw [hothers] at hdenominator
    exact ⟨hmean, value?_div_of_multiple (by omega) (hnumerator.value?_of_value? hy)
      (hdenominator.value?_of_value? (value?_ofNat (by omega))) hv⟩

/-- Small whole numbers have exact sums. -/
theorem hasMultiples_ofNat {m : ℕ} (h : n * m ≤ 2 ^ 53) (hm : m ≤ 2 ^ 53) :
    HasMultiples (.ofNat m) n := by
  refine ⟨m, value?_ofNat hm, fun k hk => ⟨.ofNat (k * m), ?_⟩⟩
  rw [← Nat.cast_mul]
  exact value?_ofNat ((Nat.mul_le_mul_right m hk).trans h)

/-! ## Verdicts on a window -/

theorem values_ne_nil (hlength : 3 ≤ window.length) : values window ≠ [] := by
  rw [← List.length_pos_iff, values, List.length_map]
  omega

theorem outliers_of_exact_mean (hv : v.value? = some q) (hflat : ∀ s ∈ window, s.value = v)
    (hlo : 3 ≤ window.length) (hhi : window.length < 2 ^ 64)
    (hmean : (sum window / .ofNat window.length).eq v = true) :
    outliers window = [] ↔
      (meanOfOthers (.ofNat window.length) (sum window / .ofNat window.length) v).eq v = true := by
  obtain ⟨c, d, hc, -, hd, hdpos⟩ := exists_value?_others (by omega) hhi
  rw [eq_swap, eq_iff hv] at hmean
  have hsquares : (squaresOf (sum window / .ofNat window.length) window).value? = some 0 := by
    refine value?_sumOf_of_zeros (List.forall_mem_map.mpr fun x hx => ?_)
    obtain ⟨s, hs, rfl⟩ := List.mem_map.mp hx
    rw [hflat s hs]
    have hdeviation := (rounds_sub hv hmean).value?_eq_zero_iff.mpr (sub_self q)
    exact value?_mul_of_eq_zero hdeviation hdeviation (zero_mul 0)
  have hverdict := isOutlier_iff_of_exact_mean hc hd hdpos hmean hsquares hv
  rw [outliers_of_flat_eq hflat hlo]
  split_ifs with houtlier
  · refine iff_of_false (values_ne_nil hlo) ?_
    rw [hverdict.mp houtlier]
    simp
  · refine iff_of_true rfl ?_
    rwa [hverdict, Bool.not_eq_false] at houtlier

theorem outliers_of_infinite_sum (hv : v.value? = some q) (hflat : ∀ s ∈ window, s.value = v)
    (hlo : 3 ≤ window.length) (hhi : window.length < 2 ^ 64)
    (hsum : ∀ p, (sum window).value? ≠ some p) : outliers window = values window := by
  obtain ⟨c, d, hc, hcpos, hd, hdpos⟩ := exists_value?_others (by omega) hhi
  have hoften : values window = List.replicate window.length v := values_of_flat hflat
  have hnumber : (sum window).isNaN = false :=
    isNaN_sumOf (List.forall_mem_map.mpr fun s hs => ⟨q, hflat s hs ▸ hv⟩)
  obtain ⟨s, hs⟩ : ∃ s, sum window = infinityOf s := by
    rcases (sum window).cases with hnan | hinfinite | ⟨p, hp⟩
    · rw [hnumber] at hnan
      cases hnan
    · exact hinfinite
    · exact absurd hp (hsum p)
  have hmean : sum window / .ofNat window.length = infinityOf s := by
    rw [hs, infinityOf_div hc hcpos]
  have hsquare : (v - infinityOf s) * (v - infinityOf s) = infinity := by
    rw [sub_infinityOf hv]
    cases s <;> decide
  have hsquares : squaresOf (infinityOf s) window = infinity := by
    rw [squaresOf, hoften, List.map_replicate, hsquare]
    exact sumOf_replicate_infinity (by omega)
  rw [outliers_of_flat_eq hflat hlo, hmean, hsquares,
    if_pos (isOutlier_of_infinite_mean s hc hcpos hd hdpos hv)]

/-- Of a window of one finite value no value stands out, or all of them do. None does if there are
fewer than three, or if every sum of them is exact; and if their mean is, then none does exactly if the
mean of the others is exact too. All of them do if their sum is out of range. -/
theorem outliers_of_flat (hv : v.isFinite = true) (hflat : ∀ s ∈ window, s.value = v)
    (hlength : window.length < 2 ^ 64) :
    (window ≠ [] → ∀ kind, ReducedValue.ofWindow .anomaly kind window
      = some (.outliers (outliers window))) ∧
    (outliers window = [] ∨ outliers window = values window) ∧
    (window.length < 3 → outliers window = []) ∧
    (HasMultiples v window.length → outliers window = []) ∧
    (3 ≤ window.length → (sum window / .ofNat window.length).eq v = true →
      (outliers window = [] ↔
        (meanOfOthers (.ofNat window.length) (sum window / .ofNat window.length) v).eq v = true)) ∧
    (3 ≤ window.length → (sum window).isFinite = false → outliers window = values window) := by
  obtain ⟨q, hq⟩ := isFinite_iff.mp hv
  have hshort (h : window.length < 3) : outliers window = [] := by rw [outliers, if_pos h]
  refine ⟨fun hne kind => ?_, ?_, hshort, fun hmultiples => ?_,
    fun hlo hmean => outliers_of_exact_mean hq hflat hlo hlength hmean, fun hlo hsum => ?_⟩
  · rw [ReducedValue.ofWindow, if_neg (mt List.isEmpty_iff.mp hne)]
  · rcases Nat.lt_or_ge window.length 3 with hlt | hlo
    · exact .inl (hshort hlt)
    · rw [outliers_of_flat_eq hflat hlo]
      split_ifs
      · exact .inr rfl
      · exact .inl rfl
  · rcases Nat.lt_or_ge window.length 3 with hlt | hlo
    · exact hshort hlt
    · obtain ⟨hmean, hothers⟩ := hmultiples.means_eq (by omega) hlength
      rw [← values_of_flat hflat] at hmean hothers
      exact (outliers_of_exact_mean hq hflat hlo hlength hmean).mpr hothers
  · refine outliers_of_infinite_sum hq hflat hlo hlength fun p hp => ?_
    rw [isFinite_iff.mpr ⟨p, hp⟩] at hsum
    cases hsum

/-- Three times the double next to 0.3. -/
def threeTenths : List Sample := List.replicate 3 ⟨.zero, ⟨0x3FD3333333333333⟩, 7⟩

/-- Their mean is exact, but the mean of two of them is not, so all three stand out. Three times three
is different. -/
theorem outliers_of_flat_threeTenths :
    outliers threeTenths ≠ [] ∧ outliers threeTenths = values threeTenths ∧
      outliers (List.replicate 3 ⟨.zero, .ofNat 3, 7⟩) = [] := by
  obtain ⟨-, hverdict, -, -, hexact, -⟩ := @outliers_of_flat threeTenths ⟨0x3FD3333333333333⟩
    (by decide) (by decide) (by decide)
  obtain ⟨-, -, -, hwhole, -⟩ := @outliers_of_flat (List.replicate 3 ⟨.zero, .ofNat 3, 7⟩) (.ofNat 3)
    (by decide) (by decide) (by decide)
  have hsome : outliers threeTenths ≠ [] := by
    rw [Ne, hexact (by decide) (by decide +kernel)]
    decide +kernel
  exact ⟨hsome, hverdict.resolve_left hsome, hwhole (hasMultiples_ofNat (by decide) (by decide))⟩

end Telemetry.Statistics
