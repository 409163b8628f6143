import Telemetry.Proofs.Metric.Buckets

/-!
# The ends of a histogram

The least values of a window are in the first bucket of its histogram. The greatest ones are in the
last bucket, unless the width of the window is out of range. Then the width is infinite, nothing can be
placed, and all values are in the first bucket.

## Main statements

* `Histogram.bucketOf_least`, `Histogram.bucketOf_greatest`: where the ends of a window are placed.
* `Histogram.ends_occupied_iff`: when both ends of a histogram are occupied.
-/
namespace Telemetry.Histogram

open Double Statistics

variable {buckets : ℕ} {window : List Sample} {lo hi value : Double} {p q : ℚ} {h : Histogram}

/-! ## Placement -/

theorem bucketOf_of_ne (hlo : lo.value? = some p) (hhi : hi.value? = some q) (hne : q ≠ p)
    (buckets : ℕ) (value : Double) :
    bucketOf buckets lo hi value
      = Nat.min ((value - lo) / (hi - lo) * .ofNat buckets).truncate (buckets - 1) := by
  have hwide : ¬ (hi - lo).eq .zero = true := by
    rw [eq_zero_iff, (rounds_sub hhi hlo).value?_eq_zero_iff]
    exact sub_ne_zero.mpr hne
  rw [bucketOf, if_neg hwide]

/-- The least value is at no distance from the first bucket, whatever the width is. -/
theorem bucketOf_least (hlo : lo.value? = some p) (hhi : hi.value? = some q) (hne : q ≠ p)
    (hvalue : value.value? = some p) (hb : buckets ≤ 2 ^ 53) :
    bucketOf buckets lo hi value = 0 := by
  have hdistance : (value - lo).value? = some 0 :=
    (rounds_sub hvalue hlo).value?_eq_zero_iff.mpr (sub_self p)
  have hpart : ((value - lo) / (hi - lo)).value? = some 0 := by
    rcases sub_cases hhi hlo hne with ⟨r, hr, hrne⟩ | ⟨s, hs⟩
    · exact value?_div_of_zero hdistance hr hrne
    · rw [hs]
      exact value?_div_infinityOf hdistance s
  have htruncate : ((value - lo) / (hi - lo) * .ofNat buckets).truncate = 0 :=
    truncate_of_value? (value?_mul_of_eq_zero hpart (value?_ofNat hb) (zero_mul _)) (by omega)
  rw [bucketOf_of_ne hlo hhi hne, htruncate]
  exact Nat.zero_min _

/-- The greatest value is as far from the first bucket as the window is wide. -/
theorem bucketOf_greatest (hlo : lo.value? = some p) (hhi : hi.value? = some q) (hne : q ≠ p)
    (hvalue : value.value? = some q) (hb : buckets ≤ 2 ^ 53) :
    bucketOf buckets lo hi value = if (hi - lo).isFinite = true then buckets - 1 else 0 := by
  rw [bucketOf_of_ne hlo hhi hne, sub_congr hvalue hhi hlo hne]
  rcases sub_cases hhi hlo hne with ⟨r, hr, hrne⟩ | ⟨s, hs⟩
  · have hone : ((hi - lo) / (hi - lo)).value? = some 1 := by
      have hdiv := value?_div (z := .ofNat 1) hr hr hrne
        (by rw [div_self hrne]; exact_mod_cast value?_ofNat (n := 1) (by omega))
      rwa [div_self hrne] at hdiv
    have hall : ((hi - lo) / (hi - lo) * .ofNat buckets).value? = some (buckets : ℚ) := by
      have hmul := value?_mul (z := .ofNat buckets) hone (value?_ofNat hb)
        (by rw [one_mul]; exact value?_ofNat hb)
      rwa [one_mul] at hmul
    rw [if_pos (isFinite_iff.mpr ⟨r, hr⟩), truncate_of_value? hall (by omega)]
    exact Nat.min_eq_right (Nat.sub_le _ _)
  · have hnone : ¬ (hi - lo).isFinite = true := by
      rw [hs, isFinite_iff]
      simp
    have hnan : ((hi - lo) / (hi - lo) * .ofNat buckets).isNaN = true := by
      rw [hs]
      exact isNaN_mul_of_isNaN (isNaN_infinityOf_div s s) _
    rw [if_neg hnone, truncate_of_isNaN hnan]
    exact Nat.zero_min _

/-! ## Windows -/

/-- The numbers of a window of finite values are all of its values. -/
theorem numbers_of_isFinite (hfinite : ∀ s ∈ window, s.value.isFinite = true) :
    numbers window = values window := by
  refine List.filter_eq_self.mpr (List.forall_mem_map.mpr fun s hs => ?_)
  obtain ⟨q, hq⟩ := isFinite_iff.mp (hfinite s hs)
  rw [isNaN_of_value? hq]
  rfl

/-- In the histogram of a window of finite values that are not all equal, the extremes are those of the
window, the samples with the least value are in the first bucket, and those with the greatest value
are in the last bucket if there is no other or the width of the window is in range, and only then. -/
theorem ends_occupied_iff (hne : window ≠ []) (hfinite : ∀ s ∈ window, s.value.isFinite = true)
    (hlo : 1 ≤ buckets) (hhi : buckets ≤ 2 ^ 53) (hh : ofWindow window buckets = .ok h)
    (hlt : h.min.lt h.max = true) :
    Tallies window buckets h ∧
      IsExtreme Double.le (values window) h.min ∧
      IsExtreme (flip Double.le) (values window) h.max ∧
      (∀ s ∈ window, s.value.eq h.min = true → bucketOf buckets h.min h.max s.value = 0) ∧
      ((∀ s ∈ window, s.value.eq h.max = true →
          bucketOf buckets h.min h.max s.value = buckets - 1) ↔
        buckets = 1 ∨ (h.max - h.min).isFinite = true) := by
  have htallies : Tallies window buckets h := tallies_of_ofWindow hlo hh
  have hnumbers : numbers window = values window := numbers_of_isFinite hfinite
  have hsome : numbers window ≠ [] := by
    rw [hnumbers]
    exact mt List.map_eq_nil_iff.mp hne
  have hleast := htallies.ends.least hsome
  have hgreatest := htallies.ends.greatest hsome
  rw [hnumbers] at hleast hgreatest
  have hvalues : ∀ v ∈ values window, ∃ q, v.value? = some q :=
    List.forall_mem_map.mpr fun s hs => isFinite_iff.mp (hfinite s hs)
  obtain ⟨p, hp⟩ := hvalues _ hleast.mem
  obtain ⟨q, hq⟩ := hvalues _ hgreatest.mem
  have hwide : q ≠ p := by
    rintro rfl
    have heq := (eq_iff hp).mpr hq
    rw [eq_eq_compare, beq_iff_eq] at heq
    rw [lt_eq_compare, heq] at hlt
    cases hlt
  have hvalue {s : Sample} {x : Double} {r : ℚ} (hx : x.value? = some r)
      (heq : s.value.eq x = true) : s.value.value? = some r :=
    (eq_iff hx).mp (eq_swap _ _ ▸ heq)
  refine ⟨htallies, hleast, hgreatest, fun s _ heq => ?_, ?_⟩
  · exact bucketOf_least hp hq hwide (hvalue hp heq) hhi
  · constructor
    · intro hall
      obtain ⟨s, hs, hsmax⟩ := List.mem_map.mp hgreatest.mem
      have hlast := hall s hs (by rw [eq_iff (hsmax ▸ hq)]; exact hq)
      rw [bucketOf_greatest hp hq hwide (hsmax ▸ hq) hhi] at hlast
      split_ifs at hlast with hrange
      · exact .inr hrange
      · exact .inl (by omega)
    · intro hcases s _ heq
      rw [bucketOf_greatest hp hq hwide (hvalue hq heq) hhi]
      rcases hcases with rfl | hrange
      · simp
      · rw [if_pos hrange]

/-- The numbers 10 ^ 308 and -10 ^ 308, which are further apart than any number is from zero. -/
def farApart : List Sample :=
  [⟨.zero, ⟨0xFFE1CCF385EBC8A0⟩, 7⟩, ⟨.zero, ⟨0x7FE1CCF385EBC8A0⟩, 7⟩]

/-- With two buckets both samples are in the first one. -/
theorem ends_occupied_iff_farApart :
    ∃ h, ofWindow farApart 2 = .ok h ∧ Tallies farApart 2 h ∧ h.min.lt h.max = true ∧
      (h.max - h.min).isFinite = false ∧
      ¬ ∀ s ∈ farApart, s.value.eq h.max = true → bucketOf 2 h.min h.max s.value = 1 := by
  obtain ⟨h, hh⟩ := @exists_ofWindow 2 farApart (by decide)
  have hne : farApart ≠ [] := by decide
  have hends : (ofWindow farApart 2).toOption.map
      (fun h => (h.min.lt h.max, (h.max - h.min).isFinite)) = some (true, false) := by
    decide +kernel
  rw [hh] at hends
  obtain ⟨hlt, hrange⟩ : h.min.lt h.max = true ∧ (h.max - h.min).isFinite = false := by
    simpa using Option.some.inj hends
  obtain ⟨htallies, -, -, -, hiff⟩ :=
    ends_occupied_iff hne (by decide +kernel) (by decide) (by decide) hh hlt
  refine ⟨h, hh, htallies, hlt, hrange, ?_⟩
  rw [hiff, hrange]
  decide

end Telemetry.Histogram
