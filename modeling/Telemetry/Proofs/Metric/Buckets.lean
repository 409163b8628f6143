import Telemetry.Metric.Histogram
import Telemetry.Proofs.Number.Arithmetic
import Telemetry.Proofs.Reduction.Extremes
import Mathlib

/-!
# What a histogram counts

A histogram goes from the least number of its window to the greatest one, and NaN is no number.
Every sample is counted in one of the buckets, whatever its value is: what cannot be placed is in the
first bucket, and what would lie beyond the last one is in the last. So the counters add up to the
number of samples, and a window of equal numbers is in the first bucket.

## Main definitions

* `Histogram.HasEnds`: between which values a window lies.
* `Histogram.Tallies`: the ends and the counters of a histogram are those of a window.

## Main statements

* `Histogram.hasEnds_of_ofWindow`: the ends of a histogram are those of its window.
* `Histogram.tallies_of_ofWindow`: the histogram of a window counts its samples.
* `Histogram.exists_tallies_ofWindow`: every window has one, and a buffer is listed with it.
-/
namespace Telemetry.Histogram

open Double Statistics

variable {buckets : ℕ} {window : List Sample} {lo hi value : Double} {h : Histogram}

/-- The values of a window that are numbers. -/
def numbers (window : List Sample) : List Double := (values window).filter fun v => !v.isNaN

/-- Whether no two numbers of a window differ. -/
def IsFlat (window : List Sample) : Prop :=
  ∀ v ∈ numbers window, ∀ w ∈ numbers window, v.eq w = true

/-- Whether a window lies between two values: these are its least and its greatest number, if it has
one. -/
structure HasEnds (window : List Sample) (lo hi : Double) : Prop where
  least : numbers window ≠ [] → IsExtreme Double.le (numbers window) lo
  greatest : numbers window ≠ [] → IsExtreme (flip Double.le) (numbers window) hi
  /-- Of NaN alone the search for an end ends where it began. -/
  nothing : window ≠ [] → numbers window = [] → lo = .infinity ∧ hi = .negativeInfinity
  empty : window = [] → lo = .zero ∧ hi = .zero

/-- Whether the ends and the counters of a histogram are those of a window: each sample is counted
in the bucket of its value, and nowhere else. -/
structure Tallies (window : List Sample) (buckets : ℕ) (h : Histogram) : Prop where
  size : h.counts.size = buckets
  ends : HasEnds window h.min h.max
  bucketOf_lt : ∀ s ∈ window, bucketOf buckets h.min h.max s.value < h.counts.size
  count : ∀ i < buckets,
    h.counts[i]? = some (window.countP fun s => bucketOf buckets h.min h.max s.value = i)
  total : h.total = window.length
  /-- A window has no width if its numbers are finite and equal, and only then; NaN alone has no
  ends. -/
  span : (h.max - h.min).eq .zero = true ↔ (numbers window = [] → window = []) ∧
    IsFlat window ∧ ∀ v ∈ numbers window, v.isFinite = true
  /-- A window of equal numbers is in the first bucket, infinities and NaN included. So is, with
  `span`, a window without width. -/
  flat : IsFlat window →
    (∀ s ∈ window, bucketOf buckets h.min h.max s.value = 0) ∧ h.counts[0]? = some window.length

/-! ## Ends -/

theorem mem_numbers {v : Double} : v ∈ numbers window ↔ v ∈ values window ∧ v.isNaN = false := by
  simp [numbers]

theorem extremes_eq (window : List Sample) :
    extremes window = ((values window).foldl Double.min .infinity,
      (values window).foldl Double.max .negativeInfinity) := by
  have hsplit (lo hi : Double) :
      window.foldl (fun ends s => (ends.1.min s.value, ends.2.max s.value)) (lo, hi)
        = ((values window).foldl Double.min lo, (values window).foldl Double.max hi) := by
    induction window generalizing lo hi with
    | nil => rfl
    | cons s window ih => exact ih (lo.min s.value) (hi.max s.value)
  exact hsplit _ _

theorem min_infinity (hvalue : value.isNaN = false) : Double.min .infinity value = value := by
  rcases value.cases with hnan | ⟨s, rfl⟩ | ⟨q, hq⟩
  · rw [hvalue] at hnan
    cases hnan
  · cases s <;> decide
  · rw [Double.min, hvalue, lt_infinity hq]
    rfl

theorem max_negativeInfinity (hvalue : value.isNaN = false) :
    Double.max .negativeInfinity value = value := by
  rcases value.cases with hnan | ⟨s, rfl⟩ | ⟨q, hq⟩
  · rw [hvalue] at hnan
    cases hnan
  · cases s <;> decide
  · rw [Double.max, hvalue, negativeInfinity_lt hq]
    rfl

/-- A search through numbers that begins with a value to which every number is preferred ends with
an extreme. -/
theorem isExtreme_foldl_numbers {le : Double → Double → Bool} {choose : Double → Double → Double}
    {start : Double} (hchooses : Chooses le choose) (hstart : start.isNaN = false)
    (hfirst : ∀ v : Double, v.isNaN = false → choose start v = v) (hne : numbers window ≠ []) :
    IsExtreme le (numbers window) ((values window).foldl choose start) := by
  have hnumbers : ∀ v ∈ numbers window, v.isNaN = false := fun v hv => (mem_numbers.mp hv).2
  rw [hchooses.foldl_eq_filter hstart]
  change IsExtreme le (numbers window) ((numbers window).foldl choose start)
  obtain ⟨v, rest, hcons⟩ := List.exists_cons_of_ne_nil hne
  rw [hcons, List.forall_mem_cons] at hnumbers
  rw [hcons, List.foldl_cons, hfirst v hnumbers.1]
  exact hchooses.isExtreme_foldl hnumbers.1 hnumbers.2

theorem hasEnds_extremes (hne : window ≠ []) :
    HasEnds window (extremes window).1 (extremes window).2 := by
  rw [extremes_eq]
  constructor
  case least => exact isExtreme_foldl_numbers chooses_min (by decide) @min_infinity
  case greatest => exact isExtreme_foldl_numbers chooses_max (by decide) @max_negativeInfinity
  case nothing =>
    intro _ hnone
    rw [chooses_min.foldl_eq_filter (by decide), chooses_max.foldl_eq_filter (by decide)]
    change (numbers window).foldl _ _ = _ ∧ (numbers window).foldl _ _ = _
    rw [hnone]
    exact ⟨rfl, rfl⟩
  case empty => exact fun h => absurd h hne

/-- The ends of a histogram are those of its window. -/
theorem hasEnds_of_ofWindow (hh : ofWindow window buckets = .ok h) :
    HasEnds window h.min h.max := by
  rw [ofWindow] at hh
  split at hh
  · cases hh
  · by_cases hempty : window.isEmpty = true
    · rw [if_pos hempty] at hh
      cases hh
      obtain rfl := List.isEmpty_iff.mp hempty
      exact ⟨nofun, nofun, nofun, fun _ => ⟨rfl, rfl⟩⟩
    · rw [if_neg hempty] at hh
      cases hh
      exact hasEnds_extremes (mt List.isEmpty_iff.mpr hempty)

namespace HasEnds

theorem isNaN_least (h : HasEnds window lo hi) (hne : numbers window ≠ []) : lo.isNaN = false :=
  (mem_numbers.mp (h.least hne).mem).2

theorem isNaN_greatest (h : HasEnds window lo hi) (hne : numbers window ≠ []) : hi.isNaN = false :=
  (mem_numbers.mp (h.greatest hne).mem).2

/-- The ends are at no distance if the numbers are finite and equal, and only then. -/
theorem span_eq_zero_iff_of_ne_nil (h : HasEnds window lo hi) (hne : numbers window ≠ []) :
    (hi - lo).eq .zero = true ↔ IsFlat window ∧ ∀ v ∈ numbers window, v.isFinite = true := by
  have hleast := h.least hne
  have hgreatest := h.greatest hne
  rw [eq_zero_iff, value?_sub_eq_zero_iff (h.isNaN_greatest hne) (h.isNaN_least hne)]
  constructor
  · rintro ⟨q, hhi, hlo⟩
    have hback : hi.le lo = true := le_of_eq ((eq_iff hhi).mpr hlo)
    have hflat : IsFlat window := by
      -- every number is at most the greatest, so at most the least, so at most every number
      have hle : ∀ v ∈ numbers window, ∀ w ∈ numbers window, v.le w = true := fun v hv w hw =>
        Double.le_trans (Double.le_trans (hgreatest.le v hv) hback) (hleast.le w hw)
      exact fun v hv w hw => eq_of_le_of_le (hle v hv w hw) (hle w hw v hv)
    refine ⟨hflat, fun v hv => isFinite_iff.mpr ⟨q, ?_⟩⟩
    exact (eq_iff hlo).mp (hflat lo hleast.mem v hv)
  · rintro ⟨hflat, hfinite⟩
    obtain ⟨q, hq⟩ := isFinite_iff.mp (hfinite lo hleast.mem)
    exact ⟨q, (eq_iff hq).mp (hflat lo hleast.mem hi hgreatest.mem), hq⟩

theorem span_eq_zero_iff (h : HasEnds window lo hi) :
    (hi - lo).eq .zero = true ↔ (numbers window = [] → window = []) ∧
      IsFlat window ∧ ∀ v ∈ numbers window, v.isFinite = true := by
  by_cases hnone : numbers window = []
  · have hflat : IsFlat window := by simp [IsFlat, hnone]
    by_cases hempty : window = []
    · obtain ⟨rfl, rfl⟩ := h.empty hempty
      exact iff_of_true (by decide) ⟨fun _ => hempty, hflat, by simp [hnone]⟩
    · obtain ⟨rfl, rfl⟩ := h.nothing hempty hnone
      exact iff_of_false (by decide) fun hall => hempty (hall.1 hnone)
  · rw [h.span_eq_zero_iff_of_ne_nil hnone]
    simp [hnone]

end HasEnds

/-! ## Buckets -/

theorem bucketOf_lt (hb : 0 < buckets) (min max value : Double) :
    bucketOf buckets min max value < buckets := by
  rw [bucketOf]
  split
  · exact hb
  · exact Nat.lt_of_le_of_lt (Nat.min_le_right _ _) (by omega)

/-- What has no distance from the least value that is a number is in the first bucket. -/
theorem bucketOf_of_isNaN (h : ((value - lo) / (hi - lo)).isNaN = true) (buckets : ℕ) :
    bucketOf buckets lo hi value = 0 := by
  rw [bucketOf, truncate_of_isNaN (isNaN_mul_of_isNaN h _)]
  split
  · rfl
  · exact Nat.zero_min _

/-- In a window of equal numbers everything is in the first bucket: there is no width if they are
finite, and it is no number if they are infinite. -/
theorem bucketOf_of_isFlat (h : HasEnds window lo hi) (hflat : IsFlat window) (buckets : ℕ)
    {s : Sample} (hs : s ∈ window) : bucketOf buckets lo hi s.value = 0 := by
  by_cases hne : numbers window = []
  · have hnan : s.value.isNaN = true := by
      by_contra hnumber
      have hmem : s.value ∈ numbers window :=
        mem_numbers.mpr ⟨List.mem_map_of_mem hs, Bool.not_eq_true _ ▸ hnumber⟩
      simp [hne] at hmem
    exact bucketOf_of_isNaN (isNaN_div_of_isNaN (.inl (isNaN_sub_of_isNaN (.inl hnan)))) buckets
  · have heq : lo.eq hi = true := hflat lo (h.least hne).mem hi (h.greatest hne).mem
    rcases lo.cases with hnan | ⟨t, rfl⟩ | ⟨q, hlo⟩
    · rw [h.isNaN_least hne] at hnan
      cases hnan
    · obtain ⟨-, -, hunpacked | ⟨hzero, -⟩⟩ := eq_iff_unpacked.mp heq
      · rw [unpacked_infinityOf, eq_comm, ← eq_infinityOf_iff] at hunpacked
        subst hunpacked
        exact bucketOf_of_isNaN (isNaN_div_of_isNaN (.inr (isNaN_infinityOf_sub t))) buckets
      · simp at hzero
    · have hhi : hi.value? = some q := (eq_iff hlo).mp heq
      have hspan : (hi - lo).eq .zero = true :=
        eq_zero_iff.mpr ((rounds_sub hhi hlo).value?_eq_zero_iff.mpr (sub_self q))
      rw [bucketOf, if_pos hspan]

/-! ## Counting -/

/-- Counting adds to each counter the number of items that are placed there. -/
theorem getElem?_foldl_modify {α : Type} (place : α → ℕ) (items : List α) (counts : Array ℕ) (i : ℕ) :
    (items.foldl (fun counts x => counts.modify (place x) (· + 1)) counts)[i]?
      = counts[i]?.map (· + items.countP fun x => place x = i) := by
  induction items generalizing counts with
  | nil => simp
  | cons x items ih =>
    rw [List.foldl_cons, ih, Array.getElem?_modify]
    by_cases hplace : place x = i
    · simp [hplace, Function.comp_def, Nat.add_assoc, Nat.add_comm 1]
    · simp [hplace]

theorem getElem?_counts (hb : 0 < buckets) (hh : ofWindow window buckets = .ok h) (i : ℕ) :
    h.counts[i]? = if i < buckets then
      some (window.countP fun s => bucketOf buckets h.min h.max s.value = i) else none := by
  rw [ofWindow, if_neg hb.ne'] at hh
  by_cases hempty : window.isEmpty = true
  · rw [if_pos hempty] at hh
    cases hh
    simp [List.isEmpty_iff.mp hempty, Array.getElem?_replicate]
  · rw [if_neg hempty] at hh
    cases hh
    simp only [getElem?_foldl_modify, Array.getElem?_replicate]
    split_ifs <;> simp

/-- Items that are all placed below a bound are counted once each below it. -/
theorem sum_countP {α : Type} (place : α → ℕ) (items : List α)
    (hplace : ∀ x ∈ items, place x < buckets) :
    ((List.range buckets).map fun i => items.countP fun x => place x = i).sum = items.length := by
  show ∑ i ∈ Finset.range buckets, (items.countP fun x => place x = i) = items.length
  induction items with
  | nil => simp
  | cons x items ih =>
    obtain ⟨hx, hitems⟩ := List.forall_mem_cons.mp hplace
    simp [List.countP_cons, Finset.sum_add_distrib, ih hitems, hx]

/-- The histogram of a window counts its samples. -/
theorem tallies_of_ofWindow (hb : 0 < buckets) (hh : ofWindow window buckets = .ok h) :
    Tallies window buckets h := by
  have hcount := getElem?_counts hb hh
  have hsize : h.counts.size = buckets := by
    have hlast := hcount (buckets - 1)
    have hbeyond := hcount buckets
    rw [if_pos (by omega), Array.getElem?_eq_some_iff] at hlast
    rw [if_neg (lt_irrefl _), Array.getElem?_eq_none_iff] at hbeyond
    obtain ⟨hlt, -⟩ := hlast
    omega
  have hlt : ∀ s ∈ window, bucketOf buckets h.min h.max s.value < buckets :=
    fun s _ => bucketOf_lt hb _ _ _
  have hlist : h.counts.toList = (List.range buckets).map fun i =>
      window.countP fun s => bucketOf buckets h.min h.max s.value = i := by
    refine List.ext_getElem? fun i => ?_
    rw [Array.getElem?_toList, hcount]
    by_cases hi : i < buckets <;> simp [hi]
  have hends : HasEnds window h.min h.max := hasEnds_of_ofWindow hh
  constructor
  case size => exact hsize
  case ends => exact hends
  case bucketOf_lt => rwa [hsize]
  case count =>
    intro i hi
    rw [hcount, if_pos hi]
  case total => rw [total, ← Array.foldl_toList, ← List.sum_eq_foldl, hlist, sum_countP _ _ hlt]
  case span => exact hends.span_eq_zero_iff
  case flat =>
    intro hflat
    have hzero : ∀ s ∈ window, bucketOf buckets h.min h.max s.value = 0 :=
      fun s hs => bucketOf_of_isFlat hends hflat buckets hs
    refine ⟨hzero, ?_⟩
    rw [hcount, if_pos hb, List.countP_eq_length.mpr (by simpa using hzero)]

theorem exists_ofWindow (window : List Sample) (hb : 0 < buckets) :
    ∃ h, ofWindow window buckets = .ok h := by
  rw [ofWindow, if_neg hb.ne']
  split
  · exact ⟨_, rfl⟩
  · exact ⟨_, rfl⟩

/-- Every window has a histogram, whatever its values are, which counts every sample once. It is the
one that a buffer with the window is listed with. -/
theorem exists_tallies_ofWindow (window : List Sample) (hb : 0 < buckets) :
    ∃ h, ofWindow window buckets = .ok h ∧ Tallies window buckets h ∧
      ∀ (b : SampleBuffer) (write : String → Except Failure Unit), b.window = window →
        b.dumpHistogram buckets write = (write h.listing).map fun _ => h := by
  obtain ⟨h, hh⟩ := exists_ofWindow window hb
  refine ⟨h, hh, tallies_of_ofWindow hb hh, fun b write hwindow => ?_⟩
  rw [SampleBuffer.dumpHistogram, hwindow, hh]
  show (write h.listing >>= fun _ => .ok h) = _
  cases write h.listing <;> rfl

/-- A window with NaN and both infinities, between which a number has no place. -/
def unplaceable : List Sample :=
  [⟨.zero, .nan, 7⟩, ⟨.zero, .infinity, 7⟩, ⟨.zero, ⟨0x3FF0000000000000⟩, 7⟩,
    ⟨.zero, .negativeInfinity, 7⟩]

/-- A window with one number, which occurs as both zeros, and NaN. -/
def level : List Sample :=
  [⟨.zero, .zero, 7⟩, ⟨.zero, .nan, 7⟩, ⟨.zero, .negativeZero, 7⟩]

/-- From minus infinity to infinity, all four samples are in the first of two buckets. Where there
is no width, they are in the first of any number of buckets. -/
theorem exists_tallies_ofWindow_unplaceable :
    0 < 2 ∧ (∃ h, ofWindow unplaceable 2 = .ok h ∧ Tallies unplaceable 2 h ∧
      h.min = .negativeInfinity ∧ h.max = .infinity ∧
      h.counts[0]? = some 4 ∧ h.counts[1]? = some 0) ∧
    0 < 5 ∧ ∃ h, ofWindow level 5 = .ok h ∧ Tallies level 5 h ∧
      (h.max - h.min).eq .zero = true ∧ h.counts[0]? = some 3 := by
  refine ⟨by decide, ?_, by decide, ?_⟩
  · obtain ⟨h, hh, htallies, -⟩ := @exists_tallies_ofWindow 2 unplaceable (by decide)
    have hparts : (ofWindow unplaceable 2).toOption.map (fun h => (h.min, h.max, h.counts))
        = some (.negativeInfinity, .infinity, #[4, 0]) := by decide +kernel
    rw [hh] at hparts
    obtain ⟨hmin, hmax, hcounts⟩ : h.min = .negativeInfinity ∧ h.max = .infinity ∧
        h.counts = #[4, 0] := by
      simpa using Option.some.inj hparts
    exact ⟨h, hh, htallies, hmin, hmax, by rw [hcounts]; rfl, by rw [hcounts]; rfl⟩
  · obtain ⟨h, hh, htallies, -⟩ := @exists_tallies_ofWindow 5 level (by decide)
    have hnumbers : numbers level = [] → level = [] := fun h => absurd h (by decide)
    have hflat : IsFlat level ∧ ∀ v ∈ numbers level, v.isFinite = true := by
      rw [IsFlat]
      decide +kernel
    exact ⟨h, hh, htallies, htallies.span.mpr ⟨hnumbers, hflat⟩, (htallies.flat hflat.1).2⟩

end Telemetry.Histogram
