import Telemetry.Proofs.Reduction.Sinks

/-!
# A pass over the metrics

Every metric is written to one sink under one key, unless there is nothing to write or the sink
refuses the key. Which keys a sink refuses does not change in a pass, so what becomes of a metric can
be told beforehand (`ReductionEngine.outcome`), and what a sink holds afterwards is what it held with
the values for it written one by one (`ReductionEngine.getElem?_reduceAll`).

## Main definitions

* `ReductionEngine.batchFor`: the keys and values that some metrics have for one sink.
* `ReductionEngine.Isolates`: every metric is written for itself, and nothing else changes.

## Main statements

* `ReductionEngine.reduceAll_isolates`
-/
namespace Telemetry

/-- Whether there is something to write for a metric. -/
def Metric.isReducible (m : Metric) : Bool := m.operator ≠ .null && !m.buffer.window.isEmpty

namespace ReductionEngine

variable {e : ReductionEngine} {m : Metric} {value : ReducedValue} {metrics : List Metric}

/-! ## Where a metric goes -/

/-- The sink that a metric is written to. -/
def home (e : ReductionEngine) (m : Metric) : Nat := m.id.toNat % e.sinks.size

/-- Whether a sink refuses writes to a key. -/
def refuses (e : ReductionEngine) (i : Nat) (key : String) : Bool :=
  e.sinks[i]?.any fun s => s.refuses key

/-- What a sink holds under a key. -/
def stored? (e : ReductionEngine) (i : Nat) (key : String) : Option Bytes :=
  e.sinks[i]?.bind fun s => s.get? key

/-- Whether the value of a metric gets written. -/
def writes (e : ReductionEngine) (m : Metric) : Bool :=
  m.isReducible && !e.refuses (e.home m) m.reductionKey

/-- Whether there is a value of a metric that does not get written. -/
def fails (e : ReductionEngine) (m : Metric) : Bool :=
  m.isReducible && e.refuses (e.home m) m.reductionKey

/-- What becomes of a metric. -/
def outcome (e : ReductionEngine) (m : Metric) : ReductionOutcome :=
  if m.isReducible then
    if e.refuses (e.home m) m.reductionKey then .failed (Sink.refused m.reductionKey) else .reduced
  else .skipped

/-- What some metrics have to be written to the `i`-th of `n` sinks, in their order. -/
def batchFor (n i : Nat) (metrics : List Metric) : List (String × Bytes) :=
  metrics.filterMap fun m =>
    if m.id.toNat % n = i then (localValue? m).map fun value => (m.reductionKey, value.encode)
    else none

theorem isSome_localValue? (m : Metric) : (localValue? m).isSome = m.isReducible := by
  unfold localValue? ReducedValue.ofWindow Metric.isReducible
  cases hw : m.buffer.window with
  | nil => simp
  | cons s window =>
    cases m.operator with
    | min =>
      cases hk : m.kind.isMonotonic <;>
        simp [Statistics.min?, Statistics.least?, Statistics.values, hk]
    | max =>
      cases hk : m.kind.isMonotonic <;>
        simp [Statistics.max?, Statistics.greatest?, Statistics.values, hk]
    | avg => simp [Statistics.mean?]
    | null | sum | store | anomaly => simp

theorem localValue?_eq_none_iff : localValue? m = none ↔ m.isReducible = false := by
  rw [← isSome_localValue?, Option.isSome_eq_false_iff, Option.isNone_iff_eq_none]

theorem isReducible_of_localValue? (h : localValue? m = some value) : m.isReducible = true := by
  rw [← isSome_localValue?, h, Option.isSome_some]

theorem batchFor_append (n i : Nat) (metrics more : List Metric) :
    batchFor n i (metrics ++ more) = batchFor n i metrics ++ batchFor n i more :=
  List.filterMap_append

theorem batchFor_cons (n i : Nat) (m : Metric) (metrics : List Metric) :
    batchFor n i (m :: metrics) = batchFor n i [m] ++ batchFor n i metrics :=
  batchFor_append n i [m] metrics

theorem batchFor_singleton_of_none (h : localValue? m = none) (n i : Nat) :
    batchFor n i [m] = [] := by
  simp [batchFor, h]

theorem batchFor_singleton_of_some (h : localValue? m = some value) (n i : Nat) :
    batchFor n i [m] = if m.id.toNat % n = i then [(m.reductionKey, value.encode)] else [] := by
  by_cases hi : m.id.toNat % n = i
  · simp [batchFor, hi, h]
  · simp [batchFor, hi]

theorem mem_batchFor {n i : Nat} {entry : String × Bytes} :
    entry ∈ batchFor n i metrics ↔ ∃ m ∈ metrics, m.id.toNat % n = i ∧
      ∃ value, localValue? m = some value ∧ (m.reductionKey, value.encode) = entry := by
  rw [batchFor, List.mem_filterMap]
  refine exists_congr fun m => and_congr_right fun _ => ?_
  by_cases hi : m.id.toNat % n = i
  · simp [hi, Option.map_eq_some_iff]
  · simp [hi]

/-- The keys of a batch are those of the metrics that have something for the sink. -/
theorem map_fst_batchFor (n i : Nat) (metrics : List Metric) :
    (batchFor n i metrics).map Prod.fst
      = (metrics.filter fun m => m.isReducible && decide (m.id.toNat % n = i)).map
          Metric.reductionKey := by
  induction metrics with
  | nil => rfl
  | cons m metrics ih =>
    rw [batchFor_cons, List.map_append, ih, ← List.singleton_append (x := m) (l := metrics),
      List.filter_append, List.map_append]
    congr 1
    cases h : localValue? m with
    | none => simp [batchFor_singleton_of_none h, localValue?_eq_none_iff.mp h]
    | some value =>
      rw [batchFor_singleton_of_some h]
      by_cases hi : m.id.toNat % n = i
      · simp [hi, isReducible_of_localValue? h]
      · simp [hi]

/-! ## One metric -/

theorem reduceOne_of_none (h : localValue? m = none) (e : ReductionEngine) :
    e.reduceOne m = (.skipped, e) := by
  rw [reduceOne, h]
  split
  · rename_i hvalue
    cases hvalue
  · rfl

theorem reduceOne_of_some (hn : 0 < e.sinks.size) (h : localValue? m = some value) :
    ∃ s, e.sinks[e.home m]? = some s ∧
      e.reduceOne m = (
        (match (write s m.reductionKey value.encode).1 with
          | .ok _ => .reduced
          | .error failure => .failed failure),
        { e with
          sinks := e.sinks.setIfInBounds (e.home m) (write s m.reductionKey value.encode).2 }) := by
  have hlt : e.home m < e.sinks.size := Nat.mod_lt _ hn
  refine ⟨e.sinks[e.home m], Array.getElem?_eq_getElem hlt, ?_⟩
  have hshard : e.shardFor? m.id = some (e.home m) := by
    rw [shardFor?, shardAmong, if_neg hn.ne', home]
  rw [reduceOne, h, hshard, Option.bind_some, Array.getElem?_eq_getElem hlt, Option.map_some]
  simp only []
  split
  · rename_i hwrite
    simp only [hwrite]
  · rename_i hwrite
    simp only [hwrite]

theorem fst_reduceOne (hn : 0 < e.sinks.size) (m : Metric) : (e.reduceOne m).1 = e.outcome m := by
  cases h : localValue? m with
  | none => rw [reduceOne_of_none h, outcome, localValue?_eq_none_iff.mp h, if_neg Bool.false_ne_true]
  | some value =>
    obtain ⟨s, hs, heq⟩ := reduceOne_of_some hn h
    rw [heq, outcome, if_pos (isReducible_of_localValue? h), refuses, hs, Option.any_some]
    cases hrefuses : s.refuses m.reductionKey with
    | true => simp [Sink.write_of_refuses hrefuses]
    | false => simp [Sink.write_of_not_refuses hrefuses]

/-- A metric changes its own sink only, as if its value were a batch of its own. -/
theorem getElem?_reduceOne (hn : 0 < e.sinks.size) (m : Metric) (i : Nat) :
    (e.reduceOne m).2.sinks[i]?
      = e.sinks[i]?.map fun s => s.writeAll (batchFor e.sinks.size i [m]) := by
  cases h : localValue? m with
  | none => simp [reduceOne_of_none h, batchFor_singleton_of_none h, Sink.writeAll]
  | some value =>
    obtain ⟨s, hs, heq⟩ := reduceOne_of_some hn h
    have hhome : m.id.toNat % e.sinks.size = e.home m := rfl
    rw [heq, batchFor_singleton_of_some h, Array.getElem?_setIfInBounds, hhome]
    by_cases hi : e.home m = i
    · subst hi
      have hlt : e.home m < e.sinks.size := Nat.mod_lt _ hn
      rw [if_pos rfl, if_pos hlt, if_pos rfl, hs]
      rfl
    · simp [hi, Sink.writeAll]

theorem size_reduceOne (hn : 0 < e.sinks.size) (m : Metric) :
    (e.reduceOne m).2.sinks.size = e.sinks.size := by
  cases h : localValue? m with
  | none => rw [reduceOne_of_none h]
  | some value =>
    obtain ⟨s, -, heq⟩ := reduceOne_of_some hn h
    rw [heq, Array.size_setIfInBounds]

theorem refuses_of_getElem? {e' : ReductionEngine} {i : Nat} {batch : List (String × Bytes)}
    (h : e'.sinks[i]? = e.sinks[i]?.map fun s => s.writeAll batch) (key : String) :
    e'.refuses i key = e.refuses i key := by
  rw [refuses, refuses, h]
  cases e.sinks[i]? with
  | none => rfl
  | some s => simp [Sink.refuses_writeAll]

theorem outcome_reduceOne (hn : 0 < e.sinks.size) (m m' : Metric) :
    (e.reduceOne m).2.outcome m' = e.outcome m' := by
  rw [outcome, outcome, home, home, size_reduceOne hn,
    refuses_of_getElem? (getElem?_reduceOne hn m _)]

/-! ## All metrics -/

/-- One step of a pass: the report and the sinks behind one more metric. -/
def reduceNext (p : ReductionReport × ReductionEngine) (m : Metric) :
    ReductionReport × ReductionEngine :=
  (p.1.add (p.2.reduceOne m).1, (p.2.reduceOne m).2)

theorem isEmpty_sinks (hn : 0 < e.sinks.size) : e.sinks.isEmpty = false := by
  simpa [Array.isEmpty_iff_size_eq_zero] using hn.ne'

theorem reduceAll_eq_foldl (hn : 0 < e.sinks.size) (metrics : List Metric) :
    e.reduceAll metrics = metrics.foldl reduceNext ({}, e) := by
  rw [reduceAll, isEmpty_sinks hn, if_neg Bool.false_ne_true]
  rfl

theorem fst_foldl_reduceNext (hn : 0 < e.sinks.size) (metrics : List Metric)
    (report : ReductionReport) :
    (metrics.foldl reduceNext (report, e)).1
      = metrics.foldl (fun report m => report.add (e.outcome m)) report := by
  induction metrics generalizing report e with
  | nil => rfl
  | cons m metrics ih =>
    rw [List.foldl_cons, List.foldl_cons, reduceNext, fst_reduceOne hn,
      ih (by rwa [size_reduceOne hn])]
    simp only [outcome_reduceOne hn]

theorem size_foldl_reduceNext (hn : 0 < e.sinks.size) (metrics : List Metric)
    (report : ReductionReport) :
    (metrics.foldl reduceNext (report, e)).2.sinks.size = e.sinks.size := by
  induction metrics generalizing report e with
  | nil => rfl
  | cons m metrics ih =>
    rw [List.foldl_cons, reduceNext, ih (by rwa [size_reduceOne hn]), size_reduceOne hn]

theorem getElem?_foldl_reduceNext (hn : 0 < e.sinks.size) (metrics : List Metric)
    (report : ReductionReport) (i : Nat) :
    (metrics.foldl reduceNext (report, e)).2.sinks[i]?
      = e.sinks[i]?.map fun s => s.writeAll (batchFor e.sinks.size i metrics) := by
  induction metrics generalizing report e with
  | nil => simp [batchFor, Sink.writeAll]
  | cons m metrics ih =>
    rw [List.foldl_cons, reduceNext, ih (by rwa [size_reduceOne hn]), size_reduceOne hn,
      getElem?_reduceOne hn, Option.map_map, batchFor_cons _ _ m metrics]
    congr 1
    funext s
    exact (Sink.writeAll_append s _ _).symm

/-- A sink holds what it held, with the values for it written one by one. -/
theorem getElem?_reduceAll (hn : 0 < e.sinks.size) (metrics : List Metric) (i : Nat) :
    (e.reduceAll metrics).2.sinks[i]?
      = e.sinks[i]?.map fun s => s.writeAll (batchFor e.sinks.size i metrics) := by
  rw [reduceAll_eq_foldl hn]
  exact getElem?_foldl_reduceNext hn metrics {} i

theorem add_outcome (e : ReductionEngine) (m : Metric) (report : ReductionReport) :
    report.add (e.outcome m) = {
      reduced := report.reduced + if e.writes m then 1 else 0
      skipped := report.skipped + if !m.isReducible then 1 else 0
      failed := report.failed + if e.fails m then 1 else 0 } := by
  unfold outcome writes fails
  cases m.isReducible with
  | false => simp [ReductionReport.add]
  | true => cases e.refuses (e.home m) m.reductionKey <;> simp [ReductionReport.add]

theorem foldl_add_outcome (e : ReductionEngine) (metrics : List Metric) (report : ReductionReport) :
    metrics.foldl (fun report m => report.add (e.outcome m)) report = {
      reduced := report.reduced + metrics.countP e.writes
      skipped := report.skipped + metrics.countP fun m => !m.isReducible
      failed := report.failed + metrics.countP e.fails } := by
  induction metrics generalizing report with
  | nil => rfl
  | cons m metrics ih =>
    rw [List.foldl_cons, ih, add_outcome]
    simp only [List.countP_cons, ReductionReport.mk.injEq]
    omega

theorem report_reduceAll (hn : 0 < e.sinks.size) (metrics : List Metric) :
    (e.reduceAll metrics).1 = {
      reduced := metrics.countP e.writes
      skipped := metrics.countP fun m => !m.isReducible
      failed := metrics.countP e.fails } := by
  rw [reduceAll_eq_foldl hn, fst_foldl_reduceNext hn, foldl_add_outcome]
  simp only [Nat.zero_add]

/-- Every metric is written, passed over or refused. -/
theorem countP_add_countP (refused : Metric → Bool) (metrics : List Metric) :
    metrics.countP (fun m => m.isReducible && !refused m) + metrics.countP (fun m => !m.isReducible)
      + metrics.countP (fun m => m.isReducible && refused m) = metrics.length := by
  induction metrics with
  | nil => rfl
  | cons m metrics ih =>
    have hone : (if m.isReducible && !refused m then 1 else 0) + (if !m.isReducible then 1 else 0)
        + (if m.isReducible && refused m then 1 else 0) = 1 := by
      cases m.isReducible with
      | false => simp
      | true => cases refused m <;> simp
    simp only [List.countP_cons, List.length_cons]
    omega

/-! ## Isolation -/

theorem stored?_reduceAll (hn : 0 < e.sinks.size) (metrics : List Metric) (i : Nat) (key : String) :
    (e.reduceAll metrics).2.stored? i key
      = e.sinks[i]?.bind fun s => if s.refuses key then s.get? key
          else ((batchFor e.sinks.size i metrics).reverse.lookup key).or (s.get? key) := by
  rw [stored?, getElem?_reduceAll hn, Option.bind_map]
  congr 1
  funext s
  exact Sink.get?_writeAll s _ key

/-- What a pass over some metrics does to the sinks, and what it reports. -/
structure Isolates (metrics : List Metric) (e : ReductionEngine) (report : ReductionReport)
    (e' : ReductionEngine) : Prop where
  /-- A metric with something to write is written, if its own key is not refused. -/
  written : ∀ m ∈ metrics, m.operator ≠ .null → m.buffer.window ≠ [] →
    e.refuses (e.home m) m.reductionKey = false →
    ∃ value, ReducedValue.ofWindow m.operator m.kind m.buffer.window = some value ∧
      e'.stored? (e.home m) m.reductionKey = some value.encode
  /-- Nothing is changed for which there is no such metric. -/
  untouched : ∀ i key,
    (∀ m ∈ metrics, e.writes m = true → e.home m = i → m.reductionKey ≠ key) →
    e'.stored? i key = e.stored? i key
  /-- What is under a key that is refused stays there. -/
  refused : ∀ i key, e.refuses i key = true → e'.stored? i key = e.stored? i key
  size : e'.sinks.size = e.sinks.size
  reduced : report.reduced = metrics.countP e.writes
  skipped : report.skipped
    = metrics.countP fun m => decide (m.operator = .null) || m.buffer.window.isEmpty
  failed : report.failed = metrics.countP e.fails
  total : report.reduced + report.skipped + report.failed = metrics.length

theorem not_isReducible (m : Metric) :
    (!m.isReducible) = (decide (m.operator = .null) || m.buffer.window.isEmpty) := by
  simp [Metric.isReducible]

theorem isReducible_iff : m.isReducible = true ↔ m.operator ≠ .null ∧ m.buffer.window ≠ [] := by
  simp [Metric.isReducible]

theorem nodup_batchFor (hkeys : (metrics.map Metric.reductionKey).Nodup) (n i : Nat) :
    ((batchFor n i metrics).map Prod.fst).Nodup := by
  rw [map_fst_batchFor]
  exact hkeys.sublist (List.filter_sublist.map _)

theorem stored?_of_written (hn : 0 < e.sinks.size)
    (hkeys : (metrics.map Metric.reductionKey).Nodup) (hm : m ∈ metrics)
    (h : localValue? m = some value) (hrefuses : e.refuses (e.home m) m.reductionKey = false) :
    (e.reduceAll metrics).2.stored? (e.home m) m.reductionKey = some value.encode := by
  have hlt : e.home m < e.sinks.size := Nat.mod_lt _ hn
  have hlookup : (batchFor e.sinks.size (e.home m) metrics).reverse.lookup m.reductionKey
      = some value.encode := by
    rw [Entries.lookup_eq_some_iff_mem, List.mem_reverse, mem_batchFor]
    · exact ⟨m, hm, rfl, value, h, rfl⟩
    · rw [List.map_reverse, List.nodup_reverse]
      exact nodup_batchFor hkeys _ _
  rw [refuses, Array.getElem?_eq_getElem hlt, Option.any_some] at hrefuses
  rw [stored?_reduceAll hn, Array.getElem?_eq_getElem hlt, Option.bind_some, hrefuses,
    if_neg Bool.false_ne_true, hlookup, Option.some_or]

theorem stored?_of_refuses (hn : 0 < e.sinks.size) {i : Nat} {key : String}
    (h : e.refuses i key = true) : (e.reduceAll metrics).2.stored? i key = e.stored? i key := by
  rw [refuses] at h
  rw [stored?_reduceAll hn, stored?]
  cases hs : e.sinks[i]? with
  | none => rfl
  | some s =>
    rw [hs, Option.any_some] at h
    rw [Option.bind_some, Option.bind_some, if_pos h]

theorem stored?_of_untouched (hn : 0 < e.sinks.size) {i : Nat} {key : String}
    (h : ∀ m ∈ metrics, e.writes m = true → e.home m = i → m.reductionKey ≠ key) :
    (e.reduceAll metrics).2.stored? i key = e.stored? i key := by
  cases hrefuses : e.refuses i key with
  | true => exact stored?_of_refuses hn hrefuses
  | false =>
    have hnotMem : key ∉ (batchFor e.sinks.size i metrics).reverse.map Prod.fst := by
      rw [List.map_reverse, List.mem_reverse, map_fst_batchFor, List.mem_map]
      rintro ⟨m, hm, hkey⟩
      rw [List.mem_filter, Bool.and_eq_true, decide_eq_true_iff] at hm
      obtain ⟨hmem, hreducible, hhome⟩ := hm
      refine h m hmem ?_ hhome hkey
      rw [writes, hreducible, home, hhome, hkey, hrefuses]
      rfl
    rw [stored?_reduceAll hn, stored?]
    congr 1
    funext s
    rw [Entries.lookup_eq_none_iff_notMem.mpr hnotMem, Option.none_or, ite_self]

/-- Metrics with different keys are written each for itself, in whatever order the registry lists
them. -/
theorem reduceAll_isolates (hn : 0 < e.sinks.size) (r : Registry) (horder : metrics.Perm r.metrics)
    (hkeys : (r.metrics.map Metric.reductionKey).Nodup) :
    Isolates r.metrics e (e.reduceAll metrics).1 (e.reduceAll metrics).2 := by
  have hkeys' : (metrics.map Metric.reductionKey).Nodup :=
    (horder.map Metric.reductionKey).nodup_iff.mpr hkeys
  refine ⟨?_, ?_, fun i key => stored?_of_refuses hn, ?_, ?_, ?_, ?_, ?_⟩
  · intro m hm hoperator hwindow hrefuses
    obtain ⟨value, hvalue⟩ := Option.isSome_iff_exists.mp
      ((isSome_localValue? m).trans (isReducible_iff.mpr ⟨hoperator, hwindow⟩))
    exact ⟨value, hvalue, stored?_of_written hn hkeys' (horder.mem_iff.mpr hm) hvalue hrefuses⟩
  · intro i key h
    exact stored?_of_untouched hn fun m hm => h m (horder.mem_iff.mp hm)
  · rw [reduceAll_eq_foldl hn]
    exact size_foldl_reduceNext hn metrics {}
  · rw [report_reduceAll hn]
    exact horder.countP_eq _
  · rw [report_reduceAll hn]
    simp only [not_isReducible]
    exact horder.countP_eq _
  · rw [report_reduceAll hn]
    exact horder.countP_eq _
  · rw [report_reduceAll hn, ← horder.length_eq]
    exact countP_add_countP (fun m => e.refuses (e.home m) m.reductionKey) metrics

/-- A gauge with one sample that is stored as it is. -/
def gaugeOf (id : MetricId) (name : String) (op : Operator) : Metric where
  id := id
  ns := "load"
  name := name
  description := ""
  tags := .empty
  operator := op
  buffer := ⟨.gauge, 1, #[⟨⟨1⟩, ⟨10⟩, 0⟩], Nat.one_pos, Nat.le_refl 1⟩
  context := none

/-- A registry of two metrics for the first of two sinks and one for the second. -/
def threeGauges : Registry :=
  (((Registry.empty 1).setShard ⟨0⟩ [(⟨0⟩, gaugeOf ⟨0⟩ "cpu" .store)] 1).setShard
    ⟨1⟩ [(⟨1⟩, gaugeOf ⟨1⟩ "disk" .null)] 2).setShard
    ⟨2⟩ [(⟨2⟩, gaugeOf ⟨2⟩ "ram" .store)] 3

/-- Two sinks, the first of which refuses one of the metrics for it. -/
def twoSinks : ReductionEngine where
  sinks := #[{ data := [("load_ram_STORE", [7])], failing := ["load_ram_STORE"] }, {}]

theorem reduceAll_isolates_threeGauges :
    Isolates threeGauges.metrics twoSinks (twoSinks.reduceAll threeGauges.metrics).1
        (twoSinks.reduceAll threeGauges.metrics).2 ∧
      (twoSinks.reduceAll threeGauges.metrics).1 = ⟨1, 1, 1⟩ ∧
      (twoSinks.reduceAll threeGauges.metrics).2.stored? 0 "load_ram_STORE" = some [7] := by
  refine ⟨reduceAll_isolates (by decide) threeGauges (List.Perm.refl _) ?_, ?_, ?_⟩
  · decide +kernel
  · decide +kernel
  · decide +kernel

end ReductionEngine

end Telemetry
