import Telemetry.Proofs.Reduction.Local

/-!
# A pass with batches

What the metrics have for one sink can also be written as one batch. A batch that is not refused
leaves of its sink what its values would leave one by one, also where a key occurs several times; one
that is refused leaves the sink as it was and fails all of its metrics. Batches are counted against
two lists without the empty ones, and these lists stay in step (`foldl_addBatch_writeBatches`).

## Main definitions

* `ReductionEngine.AgreesWith`: what the two kinds of passes have in common, and where they differ.

## Main statements

* `ReductionEngine.reduceAllBatched_agrees`
-/
namespace Telemetry.ReductionEngine

variable {e : ReductionEngine} {s : Sink} {metrics : List Metric} {n i : Nat}

/-- Whether a sink refuses the batch that some metrics have for it. -/
def refusesBatch (e : ReductionEngine) (metrics : List Metric) (i : Nat) : Bool :=
  e.sinks[i]?.any fun s => s.refusesBatch (batchFor e.sinks.size i metrics)

/-! ## Collecting batches -/

theorem collect_append_singleton (n : Nat) (metrics : List Metric) (m : Metric) :
    collect n (metrics ++ [m]) =
      match localValue? m with
      | none => ((collect n metrics).1 + 1, (collect n metrics).2)
      | some value => ((collect n metrics).1, (collect n metrics).2.modify (m.id.toNat % n)
          (· ++ [(m.reductionKey, value.encode)])) := by
  rw [collect, List.foldl_append]
  rfl

/-- One pass sorts the metrics as one pass for each sink would. -/
theorem collect_eq (n : Nat) (metrics : List Metric) :
    collect n metrics = (metrics.countP fun m => !m.isReducible,
      Array.ofFn fun i : Fin n => batchFor n i metrics) := by
  induction metrics using List.reverseRecOn with
  | nil =>
    simp only [collect, batchFor, List.foldl_nil, List.countP_nil, List.filterMap_nil]
    congr 1
    apply Array.ext <;> simp
  | append_singleton metrics m ih =>
    rw [collect_append_singleton, ih, List.countP_append, List.countP_singleton]
    simp only [batchFor_append]
    cases h : localValue? m with
    | none => simp [localValue?_eq_none_iff.mp h, batchFor_singleton_of_none h]
    | some value =>
      simp only [isReducible_of_localValue? h, Bool.not_true, Bool.false_eq_true, if_false,
        Nat.add_zero, batchFor_singleton_of_some h]
      congr 1
      apply Array.ext
      · simp
      · intro i hi hi'
        rw [Array.getElem_modify, Array.getElem_ofFn, Array.getElem_ofFn]
        by_cases hhome : m.id.toNat % n = i
        · simp [hhome]
        · simp [hhome]

/-- The sinks with their batches. -/
theorem zip_collect (e : ReductionEngine) (metrics : List Metric) :
    e.sinks.toList.zip (collect e.sinks.size metrics).2.toList
      = List.ofFn fun i : Fin e.sinks.size => (e.sinks[i], batchFor e.sinks.size i metrics) := by
  rw [collect_eq]
  apply List.ext_getElem
  · simp
  · intro i hi hi'
    simp

/-! ## Writing batches -/

/-- What a batch leaves of a sink; an empty one is not written. -/
def afterBatch (s : Sink) (batch : List (String × Bytes)) : Sink :=
  if batch.isEmpty then s else (writeBatch s batch).2

theorem afterBatch_of_refuses {batch : List (String × Bytes)} (h : s.refusesBatch batch = true) :
    afterBatch s batch = s := by
  obtain ⟨failure, hfailure⟩ := Sink.writeBatch_of_refuses h
  rw [afterBatch, hfailure, ite_self]

theorem get?_afterBatch {batch : List (String × Bytes)} (h : s.refusesBatch batch = false)
    (key : String) : (afterBatch s batch).get? key = (s.writeAll batch).get? key := by
  rw [afterBatch]
  split
  · rename_i hempty
    rw [List.isEmpty_iff.mp hempty]
    rfl
  · exact Sink.get?_writeBatch_eq_writeAll h key

theorem snd_writeBatches (pairs : List (Sink × List (String × Bytes))) :
    (writeBatches pairs).2 = pairs.map fun p => afterBatch p.1 p.2 := by
  induction pairs with
  | nil => rfl
  | cons p pairs ih =>
    obtain ⟨s, batch⟩ := p
    cases hempty : batch.isEmpty with
    | true => simp only [writeBatches, afterBatch, hempty, if_true, List.map_cons, ih]
    | false =>
      simp only [writeBatches, afterBatch, hempty, Bool.false_eq_true, if_false, List.map_cons, ih]

/-- The number of values that a batch adds to a sink. -/
def written (p : Sink × List (String × Bytes)) : Nat :=
  if p.1.refusesBatch p.2 then 0 else p.2.length

/-- The number of values that a sink refuses with a batch. -/
def lost (p : Sink × List (String × Bytes)) : Nat :=
  if p.1.refusesBatch p.2 then p.2.length else 0

theorem addBatch_writeBatch (report : ReductionReport) (p : Sink × List (String × Bytes)) :
    report.addBatch ((writeBatch p.1 p.2).1, p.2.length) = { report with
      reduced := report.reduced + written p
      failed := report.failed + lost p } := by
  unfold written lost
  cases h : p.1.refusesBatch p.2 with
  | true =>
    obtain ⟨failure, hfailure⟩ := Sink.writeBatch_of_refuses h
    rw [hfailure]
    rfl
  | false =>
    rw [Sink.writeBatch_of_not_refuses h]
    rfl

/-- The results are paired with the sizes of their own batches, although both lists were made without
the empty batches and apart from each other. -/
theorem foldl_addBatch_writeBatches (pairs : List (Sink × List (String × Bytes)))
    (report : ReductionReport) :
    ((writeBatches pairs).1.zip
        (((pairs.map Prod.snd).filter fun batch => !batch.isEmpty).map List.length)).foldl
      .addBatch report = { report with
        reduced := report.reduced + (pairs.map written).sum
        failed := report.failed + (pairs.map lost).sum } := by
  induction pairs generalizing report with
  | nil => rfl
  | cons p pairs ih =>
    obtain ⟨s, batch⟩ := p
    cases hempty : batch.isEmpty with
    | true =>
      -- an empty batch is in neither of the two lists and counts nothing
      obtain rfl := List.isEmpty_iff.mp hempty
      simp [writeBatches, ih, written, lost]
    | false =>
      have hstep := addBatch_writeBatch report (s, batch)
      simp only [writeBatches, hempty, Bool.false_eq_true, if_false, List.map_cons, Bool.not_false,
        List.filter_cons_of_pos, List.zip_cons_cons, List.foldl_cons, hstep, ih, List.sum_cons,
        Nat.add_assoc]

/-! ## Counting metrics by their batches -/

theorem length_batchFor_singleton (n i : Nat) (m : Metric) :
    (batchFor n i [m]).length = if m.isReducible && decide (m.id.toNat % n = i) then 1 else 0 := by
  cases h : localValue? m with
  | none => simp [batchFor_singleton_of_none h, localValue?_eq_none_iff.mp h]
  | some value =>
    rw [batchFor_singleton_of_some h, isReducible_of_localValue? h]
    by_cases hi : m.id.toNat % n = i
    · simp [hi]
    · simp [hi]

/-- Every metric with something to write is in one batch. -/
theorem sum_length_batchFor (hn : 0 < n) (p : Nat → Bool) (metrics : List Metric) :
    (∑ i : Fin n, if p i then (batchFor n i metrics).length else 0)
      = metrics.countP fun m => m.isReducible && p (m.id.toNat % n) := by
  induction metrics with
  | nil => simp [batchFor]
  | cons m metrics ih =>
    have hsplit : ∀ i : Fin n, (if p i then (batchFor n i (m :: metrics)).length else 0)
        = (if p i then (batchFor n i [m]).length else 0)
          + if p i then (batchFor n i metrics).length else 0 := by
      intro i
      rw [batchFor_cons, List.length_append]
      split <;> rfl
    -- of all batches only that of its own sink grows by the metric
    have hone : (∑ i : Fin n, if p i then (batchFor n i [m]).length else 0)
        = if m.isReducible && p (m.id.toNat % n) then 1 else 0 := by
      rw [Finset.sum_eq_single ⟨m.id.toNat % n, Nat.mod_lt _ hn⟩]
      · rw [length_batchFor_singleton]
        cases m.isReducible <;> cases p (m.id.toNat % n) <;> simp
      · intro i _ hne
        have hhome : m.id.toNat % n ≠ i := fun heq => hne (Fin.ext heq.symm)
        rw [length_batchFor_singleton]
        simp [hhome]
      · intro hnotMem
        exact absurd (Finset.mem_univ _) hnotMem
    simp only [hsplit, Finset.sum_add_distrib, hone, ih, List.countP_cons]
    omega

/-! ## Both kinds of passes -/

theorem getElem?_reduceAllBatched (hn : 0 < e.sinks.size) (metrics : List Metric) (i : Nat) :
    (e.reduceAllBatched metrics).2.sinks[i]?
      = e.sinks[i]?.map fun s => afterBatch s (batchFor e.sinks.size i metrics) := by
  rw [reduceAllBatched, isEmpty_sinks hn, if_neg Bool.false_ne_true]
  simp only [zip_collect, snd_writeBatches, List.map_ofFn, List.getElem?_toArray, List.getElem?_ofFn]
  split
  · rename_i hi
    simp [Array.getElem?_eq_getElem hi]
  · rename_i hi
    simp [Array.getElem?_eq_none (Nat.le_of_not_lt hi)]

theorem refusesBatch_eq (e : ReductionEngine) (metrics : List Metric) (i : Fin e.sinks.size) :
    e.refusesBatch metrics i = e.sinks[i].refusesBatch (batchFor e.sinks.size i metrics) := by
  rw [refusesBatch, Array.getElem?_eq_getElem i.isLt, Option.any_some]
  rfl

theorem sum_written (hn : 0 < e.sinks.size) (metrics : List Metric) :
    (List.ofFn fun i : Fin e.sinks.size =>
        written (e.sinks[i], batchFor e.sinks.size i metrics)).sum
      = metrics.countP fun m => m.isReducible && !e.refusesBatch metrics (e.home m) := by
  unfold home
  rw [← sum_length_batchFor hn fun i => !e.refusesBatch metrics i, List.sum_ofFn]
  refine Finset.sum_congr rfl fun i _ => ?_
  rw [written, ← refusesBatch_eq]
  cases e.refusesBatch metrics i <;> rfl

theorem sum_lost (hn : 0 < e.sinks.size) (metrics : List Metric) :
    (List.ofFn fun i : Fin e.sinks.size => lost (e.sinks[i], batchFor e.sinks.size i metrics)).sum
      = metrics.countP fun m => m.isReducible && e.refusesBatch metrics (e.home m) := by
  unfold home
  rw [← sum_length_batchFor hn fun i => e.refusesBatch metrics i, List.sum_ofFn]
  refine Finset.sum_congr rfl fun i _ => ?_
  rw [lost, ← refusesBatch_eq]

theorem report_reduceAllBatched (hn : 0 < e.sinks.size) (metrics : List Metric) :
    (e.reduceAllBatched metrics).1 = {
      reduced := metrics.countP fun m => m.isReducible && !e.refusesBatch metrics (e.home m)
      skipped := metrics.countP fun m => !m.isReducible
      failed := metrics.countP fun m => m.isReducible && e.refusesBatch metrics (e.home m) } := by
  have hbatches : (collect e.sinks.size metrics).2.toList
      = (List.ofFn fun i : Fin e.sinks.size =>
          (e.sinks[i], batchFor e.sinks.size i metrics)).map Prod.snd := by
    rw [collect_eq, List.map_ofFn, Array.toList_ofFn]
    rfl
  rw [reduceAllBatched, isEmpty_sinks hn, if_neg Bool.false_ne_true]
  simp only [zip_collect]
  rw [hbatches, foldl_addBatch_writeBatches, List.map_ofFn, List.map_ofFn, collect_eq]
  simp only [Nat.zero_add]
  congr 1
  · exact sum_written hn metrics
  · exact sum_lost hn metrics

/-- What a pass with batches has in common with a pass without, and where the two differ. -/
structure AgreesWith (metrics : List Metric) (e : ReductionEngine)
    (batched single : ReductionReport × ReductionEngine) : Prop where
  /-- A sink that does not refuse its batch holds the same values. -/
  admitted : ∀ i, e.refusesBatch metrics i = false →
    ∀ key, batched.2.stored? i key = single.2.stored? i key
  /-- A sink that refuses its batch is as it was. -/
  refused : ∀ i, e.refusesBatch metrics i = true → batched.2.sinks[i]? = e.sinks[i]?
  size : batched.2.sinks.size = single.2.sinks.size
  /-- The metrics of the batches that are refused have failed. -/
  failed : batched.1.failed
    = metrics.countP fun m => m.isReducible && e.refusesBatch metrics (e.home m)
  reduced : batched.1.reduced
    = metrics.countP fun m => m.isReducible && !e.refusesBatch metrics (e.home m)
  skipped : batched.1.skipped
    = metrics.countP fun m => decide (m.operator = .null) || m.buffer.window.isEmpty
  skipped_eq : batched.1.skipped = single.1.skipped
  /-- If no key is refused, the reports are the same. -/
  reports : (∀ m ∈ metrics, m.isReducible = true → e.refuses (e.home m) m.reductionKey = false) →
    batched.1 = single.1

theorem stored?_reduceAllBatched (hn : 0 < e.sinks.size) (h : e.refusesBatch metrics i = false)
    (key : String) :
    (e.reduceAllBatched metrics).2.stored? i key = (e.reduceAll metrics).2.stored? i key := by
  rw [stored?, stored?, getElem?_reduceAllBatched hn, getElem?_reduceAll hn]
  rw [refusesBatch] at h
  cases hs : e.sinks[i]? with
  | none => rfl
  | some s =>
    rw [hs, Option.any_some] at h
    exact get?_afterBatch h key

theorem getElem?_of_refusesBatch (hn : 0 < e.sinks.size) (h : e.refusesBatch metrics i = true) :
    (e.reduceAllBatched metrics).2.sinks[i]? = e.sinks[i]? := by
  rw [getElem?_reduceAllBatched hn]
  rw [refusesBatch] at h
  cases hs : e.sinks[i]? with
  | none => rfl
  | some s =>
    rw [hs, Option.any_some] at h
    rw [Option.map_some, afterBatch_of_refuses h]

/-- A sink refuses nothing of a batch if it refuses no metric on its own. -/
theorem refusesBatch_of_not_refuses
    (h : ∀ m ∈ metrics, m.isReducible = true → e.refuses (e.home m) m.reductionKey = false)
    (i : Nat) : e.refusesBatch metrics i = false := by
  rw [refusesBatch]
  cases hs : e.sinks[i]? with
  | none => rfl
  | some s =>
    rw [Option.any_some, Sink.refusesBatch_eq_false_iff, map_fst_batchFor]
    intro key hkey
    obtain ⟨m, hm, rfl⟩ := List.mem_map.mp hkey
    rw [List.mem_filter, Bool.and_eq_true, decide_eq_true_iff] at hm
    obtain ⟨hmem, hreducible, hhome⟩ := hm
    have hrefuses := h m hmem hreducible
    rw [home, hhome, refuses, hs] at hrefuses
    exact hrefuses

theorem report_eq_of_not_refuses (hn : 0 < e.sinks.size)
    (h : ∀ m ∈ metrics, m.isReducible = true → e.refuses (e.home m) m.reductionKey = false) :
    (e.reduceAllBatched metrics).1 = (e.reduceAll metrics).1 := by
  have hwrites : ∀ m ∈ metrics, e.writes m = m.isReducible := by
    intro m hm
    cases hreducible : m.isReducible with
    | false => rw [writes, hreducible, Bool.false_and]
    | true => rw [writes, hreducible, h m hm hreducible, Bool.not_false, Bool.true_and]
  have hfails : ∀ m ∈ metrics, e.fails m = false := by
    intro m hm
    cases hreducible : m.isReducible with
    | false => rw [fails, hreducible, Bool.false_and]
    | true => rw [fails, h m hm hreducible, Bool.and_false]
  rw [report_reduceAllBatched hn, report_reduceAll hn]
  simp only [refusesBatch_of_not_refuses h, Bool.not_false, Bool.and_true, Bool.and_false,
    ReductionReport.mk.injEq, true_and]
  constructor
  · exact List.countP_congr fun m hm => by rw [hwrites m hm]
  · exact List.countP_congr fun m hm => by rw [hfails m hm]

theorem size_reduceAllBatched (hn : 0 < e.sinks.size) (metrics : List Metric) :
    (e.reduceAllBatched metrics).2.sinks.size = e.sinks.size := by
  rw [reduceAllBatched, isEmpty_sinks hn, if_neg Bool.false_ne_true]
  simp only [zip_collect, snd_writeBatches]
  simp

/-- Whatever the sinks hold and refuse, and in whatever order the registry lists its metrics, a pass
with batches does to the sinks that do not refuse theirs what a pass without does. -/
theorem reduceAllBatched_agrees (hn : 0 < e.sinks.size) (r : Registry)
    (horder : metrics.Perm r.metrics) :
    AgreesWith metrics e (e.reduceAllBatched metrics) (e.reduceAll metrics) ∧
      (e.reduceAllBatched metrics).1.reduced + (e.reduceAllBatched metrics).1.skipped
        + (e.reduceAllBatched metrics).1.failed = r.metrics.length := by
  refine ⟨⟨?_, ?_, ?_, ?_, ?_, ?_, ?_, ?_⟩, ?_⟩
  · exact fun i h => stored?_reduceAllBatched hn h
  · exact fun i h => getElem?_of_refusesBatch hn h
  · rw [size_reduceAllBatched hn, reduceAll_eq_foldl hn, size_foldl_reduceNext hn]
  · rw [report_reduceAllBatched hn]
  · rw [report_reduceAllBatched hn]
  · rw [report_reduceAllBatched hn]
    simp only [not_isReducible]
  · rw [report_reduceAllBatched hn, report_reduceAll hn]
  · exact report_eq_of_not_refuses hn
  · rw [report_reduceAllBatched hn, ← horder.length_eq]
    exact countP_add_countP (fun m => e.refusesBatch metrics (e.home m)) metrics

/-- The key that the first sink refuses takes both metrics for that sink with it. -/
theorem reduceAllBatched_agrees_threeGauges :
    AgreesWith threeGauges.metrics twoSinks (twoSinks.reduceAllBatched threeGauges.metrics)
        (twoSinks.reduceAll threeGauges.metrics) ∧
      (twoSinks.reduceAllBatched threeGauges.metrics).1 = ⟨0, 1, 2⟩ := by
  refine ⟨(reduceAllBatched_agrees (by decide) threeGauges (List.Perm.refl _)).1, ?_⟩
  decide +kernel

end Telemetry.ReductionEngine
