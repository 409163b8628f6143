import Telemetry.Proofs.Provider.Reachable
import Telemetry.Proofs.Reduction.Keys
import Telemetry.Proofs.Reduction.Requests

/-!
# The two tiers of a cycle

A cycle first writes what the metrics have to be written, one by one or in batches, and then tells
the reducer about every metric with an operator. What a sink holds behind the first part can be said
for both ways at once (`ReductionEngine.stored?_localPass`). A request names the place where its
metric is written, if it is: the second part has no look at what became of the first, so the reducer
is also told about metrics that had no sample or were refused.

## Main definitions

* `ReductionEngine.lands`: the metrics that are written in the local tier.
* `Provider.Tiers`: both tiers agree on where every metric is.
* `Provider.Points`, `Provider.Found`: the requests, and what is at the places that they name.

## Main statements

* `Provider.cycle_tiers`, `Provider.cycle_points`
-/
namespace Telemetry

namespace ReductionEngine

variable {e : ReductionEngine} {m : Metric} {metrics : List Metric} {batched : Bool} {i : Nat}

/-- The local tier of a cycle. -/
def localPass (e : ReductionEngine) (batched : Bool) (metrics : List Metric) :
    ReductionReport × ReductionEngine :=
  if batched then e.reduceAllBatched metrics else e.reduceAll metrics

/-- Whether a write to a key passes: on its own, or with the whole batch of its sink. -/
def passes (e : ReductionEngine) (batched : Bool) (metrics : List Metric) (i : Nat)
    (key : String) : Bool :=
  if batched then !e.refusesBatch metrics i else !e.refuses i key

/-- Whether a metric gets written. -/
def lands (e : ReductionEngine) (batched : Bool) (metrics : List Metric) (m : Metric) : Bool :=
  m.isReducible && e.passes batched metrics (e.home m) m.reductionKey

theorem reducer_localPass (e : ReductionEngine) (batched : Bool) (metrics : List Metric) :
    (e.localPass batched metrics).2.reducer = e.reducer := by
  cases batched with
  | false => exact reducer_reduceAll e metrics
  | true => exact reducer_reduceAllBatched e metrics

theorem size_localPass (hn : 0 < e.sinks.size) (batched : Bool) (metrics : List Metric) :
    (e.localPass batched metrics).2.sinks.size = e.sinks.size := by
  cases batched with
  | false =>
    have hsize := size_foldl_reduceNext hn metrics {}
    rwa [← reduceAll_eq_foldl hn] at hsize
  | true => exact size_reduceAllBatched hn metrics

/-- The report counts the metrics that get written. -/
theorem reduced_localPass (hn : 0 < e.sinks.size) (batched : Bool) (metrics : List Metric) :
    (e.localPass batched metrics).1.reduced = metrics.countP (e.lands batched metrics) := by
  cases batched with
  | false =>
    have hreport := report_reduceAll hn metrics
    exact congrArg ReductionReport.reduced hreport
  | true =>
    have hreport := report_reduceAllBatched hn metrics
    exact congrArg ReductionReport.reduced hreport

/-- Behind a pass a sink holds under a key the last value that was to be written there, if writes to
the key pass, or else what it held. -/
theorem stored?_localPass (hi : i < e.sinks.size) (batched : Bool) (metrics : List Metric)
    (key : String) :
    (e.localPass batched metrics).2.stored? i key
      = if e.passes batched metrics i key
        then ((batchFor e.sinks.size i metrics).reverse.lookup key).or (e.stored? i key)
        else e.stored? i key := by
  have hn : 0 < e.sinks.size := Nat.zero_lt_of_lt hi
  have hs : e.sinks[i]? = some e.sinks[i] := Array.getElem?_eq_getElem hi
  have hrefuses : e.refuses i key = e.sinks[i].refuses key := by
    rw [refuses, hs, Option.any_some]
  have hstored : e.stored? i key = e.sinks[i].get? key := by
    rw [stored?, hs, Option.bind_some]
  cases batched with
  | false =>
    have hpass : (e.localPass false metrics).2.stored? i key
        = (e.reduceAll metrics).2.stored? i key := rfl
    rw [hpass, stored?_reduceAll hn, hs, Option.bind_some, hstored, passes,
      if_neg Bool.false_ne_true, hrefuses]
    cases e.sinks[i].refuses key with
    | false => rfl
    | true => rfl
  | true =>
    have hpass : (e.localPass true metrics).2.stored? i key
        = (e.reduceAllBatched metrics).2.stored? i key := rfl
    have hbatch : e.refusesBatch metrics i
        = e.sinks[i].refusesBatch (batchFor e.sinks.size i metrics) := by
      rw [refusesBatch, hs, Option.any_some]
    rw [hpass, passes, if_pos rfl]
    cases h : e.refusesBatch metrics i with
    | false =>
      rw [stored?, getElem?_reduceAllBatched hn, hs, Option.map_some, Option.bind_some, hstored,
        get?_afterBatch (hbatch ▸ h), ← Sink.get?_writeBatch_eq_writeAll (hbatch ▸ h),
        Sink.get?_writeBatch (hbatch ▸ h)]
      rfl
    | true =>
      rw [stored?, getElem?_of_refusesBatch hn h, ← stored?]
      rfl

/-! ## The place of a metric -/

theorem home_lt (hn : 0 < e.sinks.size) (m : Metric) : e.home m < e.sinks.size :=
  Nat.mod_lt _ hn

theorem overlaps_iff {n : Nat} {m' : Metric} : overlaps n m m' = true ↔
    m'.isReducible = true ∧ m'.id.toNat % n = m.id.toNat % n ∧
      m'.reductionKey = m.reductionKey := by
  simp [overlaps]

/-- Metrics that are written to one place get written alike. -/
theorem lands_of_overlaps {m' : Metric} (h : overlaps e.sinks.size m m' = true) :
    e.lands batched metrics m' = e.passes batched metrics (e.home m) m.reductionKey := by
  obtain ⟨hreducible, hhome, hkey⟩ := overlaps_iff.mp h
  have hhome' : e.home m' = e.home m := hhome
  rw [lands, hreducible, hhome', hkey, Bool.true_and]

/-- Where a metric is written, the last metric that is written there leaves its value. -/
theorem stored?_of_lands (hn : 0 < e.sinks.size) (hm : m ∈ metrics)
    (h : e.lands batched metrics m = true) :
    ∃ m' value, keeper? e.sinks.size metrics m = some m' ∧ e.lands batched metrics m' = true ∧
      localValue? m' = some value ∧
      (e.localPass batched metrics).2.stored? (e.home m) m.reductionKey = some value.encode := by
  rw [lands, Bool.and_eq_true] at h
  obtain ⟨hreducible, hpasses⟩ := h
  obtain ⟨m', hkeeper⟩ := exists_keeper? (n := e.sinks.size) hm hreducible
  obtain ⟨-, hoverlaps⟩ := mem_of_keeper? hkeeper
  have hreducible' := (overlaps_iff.mp hoverlaps).1
  obtain ⟨value, hvalue⟩ : ∃ value, localValue? m' = some value := by
    rw [← Option.isSome_iff_exists, isSome_localValue?, hreducible']
  have hlookup : (batchFor e.sinks.size (e.home m) metrics).reverse.lookup m.reductionKey
      = some value.encode := by
    have hlast := lookup_batchFor e.sinks.size metrics m
    rw [hkeeper, Option.bind_some, hvalue] at hlast
    exact hlast
  refine ⟨m', value, hkeeper, (lands_of_overlaps hoverlaps).trans hpasses, hvalue, ?_⟩
  rw [stored?_localPass (home_lt hn m), if_pos hpasses, hlookup, Option.some_or]

/-- Where the keys are different, the last metric of a place is the only one. -/
theorem eq_of_keeper? {n : Nat} {m' : Metric}
    (halone : ∀ m' ∈ metrics, m'.reductionKey = m.reductionKey → m' = m)
    (h : keeper? n metrics m = some m') : m' = m := by
  obtain ⟨hmem, hoverlaps⟩ := mem_of_keeper? h
  exact halone m' hmem (overlaps_iff.mp hoverlaps).2.2

/-- If the key of a metric is its own, its value is stored under it. -/
theorem stored?_of_lands_of_alone (hn : 0 < e.sinks.size) (hm : m ∈ metrics)
    (h : e.lands batched metrics m = true)
    (halone : ∀ m' ∈ metrics, m'.reductionKey = m.reductionKey → m' = m) :
    ∃ value, ReducedValue.ofWindow m.operator m.kind m.buffer.window = some value ∧
      (e.localPass batched metrics).2.stored? (e.home m) m.reductionKey = some value.encode := by
  obtain ⟨m', value, hkeeper, -, hvalue, hstored⟩ := stored?_of_lands hn hm h
  rw [eq_of_keeper? halone hkeeper] at hvalue
  exact ⟨value, hvalue, hstored⟩

/-- What changes in a sink is the place of a metric that gets written. -/
theorem exists_of_stored?_ne (hn : 0 < e.sinks.size) {key : String}
    (h : (e.localPass batched metrics).2.stored? i key ≠ e.stored? i key) :
    ∃ m ∈ metrics, e.lands batched metrics m = true ∧ e.home m = i ∧ m.reductionKey = key := by
  by_cases hi : i < e.sinks.size
  · rw [stored?_localPass hi] at h
    by_cases hpasses : e.passes batched metrics i key = true
    · rw [if_pos hpasses] at h
      have hmem : key ∈ (batchFor e.sinks.size i metrics).map Prod.fst := by
        by_contra hnotMem
        have hnone : (batchFor e.sinks.size i metrics).reverse.lookup key = none := by
          rw [Entries.lookup_eq_none_iff_notMem, List.map_reverse, List.mem_reverse]
          exact hnotMem
        rw [hnone, Option.none_or] at h
        exact h rfl
      rw [map_fst_batchFor, List.mem_map] at hmem
      obtain ⟨m, hm, hkey⟩ := hmem
      rw [List.mem_filter, Bool.and_eq_true, decide_eq_true_iff] at hm
      obtain ⟨hmetric, hreducible, hhome⟩ := hm
      have hhome' : e.home m = i := hhome
      refine ⟨m, hmetric, ?_, hhome', hkey⟩
      rw [lands, hreducible, hhome', hkey, hpasses]
      rfl
    · rw [if_neg hpasses] at h
      exact absurd rfl h
  · -- there is no such sink, neither before nor behind the pass
    have hbefore : e.stored? i key = none := by
      rw [stored?, Array.getElem?_eq_none (Nat.le_of_not_lt hi), Option.bind_none]
    have hbehind : (e.localPass batched metrics).2.stored? i key = none := by
      rw [stored?, Array.getElem?_eq_none, Option.bind_none]
      rw [size_localPass hn]
      exact Nat.le_of_not_lt hi
    exact absurd (hbehind.trans hbefore.symm) h

end ReductionEngine

namespace Provider

open ReductionEngine (localPass lands requestsFor keeper? localValue? overlaps)

variable {p : Provider} {reducer : Reducer} {m : Metric}

/-- The metrics that a cycle writes. -/
def writes (p : Provider) (m : Metric) : Bool :=
  p.engine.lands p.settings.batched p.registry.metrics m

/-- The request of a cycle about a metric. -/
def request (p : Provider) (m : Metric) : ReduceRequest :=
  m.request p.engine.sinks.size p.settings.cohortSize

/-- The requests of a cycle. -/
def requests (p : Provider) : List ReduceRequest :=
  requestsFor p.engine.sinks.size p.settings.cohortSize p.registry.metrics

/-- What is stored at the place that a request names. -/
def storedFor? (p : Provider) (r : ReduceRequest) : Option Bytes :=
  p.engine.stored? r.shard (Key.encode r.key r.operator)

theorem cycle_eq (p : Provider) :
    p.cycle = ((p.engine.localPass p.settings.batched p.registry.metrics).1, { p with
      engine := ((p.engine.localPass p.settings.batched p.registry.metrics).2.globalReduceAll
        p.settings.cohortSize p.registry.metrics).2 }) := by
  rw [cycle, localPass]
  cases p.settings.batched with
  | false => rfl
  | true => rfl

/-- Behind a cycle the sinks are as the local tier left them, and the reducer has its requests. -/
theorem engine_cycle (hn : 0 < p.engine.sinks.size) (hreducer : p.engine.reducer = some reducer) :
    p.cycle.2.engine = { (p.engine.localPass p.settings.batched p.registry.metrics).2 with
      reducer := some ⟨reducer.requests ++ p.requests⟩ } := by
  have hsize := ReductionEngine.size_localPass hn p.settings.batched p.registry.metrics
  rw [cycle_eq, ReductionEngine.globalReduceAll_eq (hsize ▸ hn)
    ((ReductionEngine.reducer_localPass _ _ _).trans hreducer), hsize]
  rfl

theorem reducer_cycle (hn : 0 < p.engine.sinks.size) (hreducer : p.engine.reducer = some reducer) :
    p.cycle.2.engine.reducer = some ⟨reducer.requests ++ p.requests⟩ := by
  rw [engine_cycle hn hreducer]

theorem stored?_cycle (hn : 0 < p.engine.sinks.size) (hreducer : p.engine.reducer = some reducer)
    (i : Nat) (key : String) : p.cycle.2.engine.stored? i key
      = (p.engine.localPass p.settings.batched p.registry.metrics).2.stored? i key := by
  rw [engine_cycle hn hreducer]
  rfl

/-! ## Both tiers -/

/-- What a cycle of a provider does, if no two metrics have the same key. -/
structure Tiers (p : Provider) (reducer : Reducer) (report : ReductionReport) (p' : Provider) :
    Prop where
  /-- The reducer gets the requests about the metrics with an operator, and no other. -/
  received : p'.engine.reducer = some ⟨reducer.requests ++
    (p.registry.metrics.filter fun m => m.operator ≠ .null).map fun m => {
      ns := m.ns
      name := m.name
      key := m.stringified
      shard := m.id.toNat % p.engine.sinks.size
      operator := m.operator
      cohort := p.settings.cohortSize }⟩
  /-- No two of them are the same. -/
  once : p.requests.Nodup
  reduced : report.reduced = p.registry.metrics.countP p.writes
  /-- A metric that is written is where its request says. -/
  stored : ∀ m ∈ p.registry.metrics, p.writes m = true → p.request m ∈ p.requests ∧
    ∃ value, ReducedValue.ofWindow m.operator m.kind m.buffer.window = some value ∧
      p'.storedFor? (p.request m) = some value.encode
  /-- Nothing is written anywhere else. -/
  elsewhere : ∀ i key, p'.engine.stored? i key ≠ p.engine.stored? i key →
    ∃ m ∈ p.registry.metrics, p.writes m = true ∧ (p.request m).shard = i ∧
      Key.encode (p.request m).key (p.request m).operator = key

theorem request_mem_requests (hm : m ∈ p.registry.metrics) (hnull : m.operator ≠ .null) :
    p.request m ∈ p.requests :=
  ReductionEngine.mem_requestsFor.mpr ⟨m, hm, hnull, rfl⟩

theorem operator_ne_null_of_writes (h : p.writes m = true) : m.operator ≠ .null := by
  rw [writes, lands, Bool.and_eq_true] at h
  exact (ReductionEngine.isReducible_iff.mp h.1).1

/-- If no two metrics have the same key, then what is written in a cycle is where the requests of that
cycle say, in batches or not. -/
theorem cycle_tiers (hn : 0 < p.engine.sinks.size) (hreducer : p.engine.reducer = some reducer)
    (hkeys : (p.registry.metrics.map Metric.reductionKey).Nodup) :
    Tiers p reducer p.cycle.1 p.cycle.2 := by
  have halone : ∀ m ∈ p.registry.metrics, ∀ m' ∈ p.registry.metrics,
      m'.reductionKey = m.reductionKey → m' = m := by
    intro m hm m' hm' hkey
    exact List.inj_on_of_nodup_map hkeys hm' hm hkey
  constructor
  case received => exact reducer_cycle hn hreducer
  case once => exact ReductionEngine.nodup_requestsFor hkeys _ _
  case reduced =>
    rw [cycle_eq]
    exact ReductionEngine.reduced_localPass hn _ _
  case stored =>
    intro m hm hwrites
    refine ⟨request_mem_requests hm (operator_ne_null_of_writes hwrites), ?_⟩
    obtain ⟨value, hvalue, hstored⟩ :=
      ReductionEngine.stored?_of_lands_of_alone hn hm hwrites (halone m hm)
    refine ⟨value, hvalue, ?_⟩
    rw [storedFor?, stored?_cycle hn hreducer]
    exact hstored
  case elsewhere =>
    intro i key hne
    rw [stored?_cycle hn hreducer] at hne
    exact ReductionEngine.exists_of_stored?_ne hn hne

/-- The three gauges with two sinks and a reducer, in batches if so wanted. -/
def threeGauges (batched : Bool) : Provider :=
  { plain with
    settings := { batched := batched, cohortSize := 4 }
    registry := ReductionEngine.threeGauges
    engine := { ReductionEngine.twoSinks with reducer := some {} } }

/-- One by one, the first sink refuses one gauge and takes the other, and in batches none; the
reducer is told about both. -/
theorem cycle_tiers_threeGauges :
    Tiers (threeGauges false) {} (threeGauges false).cycle.1 (threeGauges false).cycle.2 ∧
      Tiers (threeGauges true) {} (threeGauges true).cycle.1 (threeGauges true).cycle.2 ∧
      (threeGauges false).requests = (threeGauges true).requests ∧
      (threeGauges true).requests.map (fun r => (r.key, r.shard, r.cohort))
        = [("load_cpu", 0, 4), ("load_ram", 0, 4)] ∧
      (threeGauges false).cycle.1.reduced = 1 ∧ (threeGauges true).cycle.1.reduced = 0 := by
  refine ⟨cycle_tiers (by decide) rfl ?_, cycle_tiers (by decide) rfl ?_, ?_, ?_, ?_, ?_⟩
  all_goals decide +kernel

/-! ## What a request points at -/

/-- What is at the place that the request about a metric names, behind a cycle of a provider. -/
structure Found (p : Provider) (m : Metric) (p' : Provider) : Prop where
  /-- If the metric is written, then the value of the last one that is written to its sink and key. -/
  last : p.writes m = true → ∃ m' value, keeper? p.engine.sinks.size p.registry.metrics m = some m' ∧
    p.writes m' = true ∧ localValue? m' = some value ∧
    p'.storedFor? (p.request m) = some value.encode
  /-- If moreover no other metric has its key, then its own value. -/
  own : p.writes m = true →
    (∀ m' ∈ p.registry.metrics, m'.reductionKey = m.reductionKey → m' = m) →
    ∃ value, localValue? m = some value ∧ p'.storedFor? (p.request m) = some value.encode
  /-- If no metric with its sink and its key is written, then what was there before. -/
  before : (∀ m' ∈ p.registry.metrics,
      overlaps p.engine.sinks.size m m' = true → p.writes m' = false) →
    p'.storedFor? (p.request m) = p.storedFor? (p.request m)

/-- Every request of a cycle names a sink and the key of a metric with an operator. -/
structure Points (p : Provider) (reducer : Reducer) (p' : Provider) : Prop where
  received : p'.engine.reducer = some ⟨reducer.requests ++ p.requests⟩
  shard : ∀ r ∈ p.requests, r.shard < p.engine.sinks.size
  about : ∀ r ∈ p.requests, ∃ m ∈ p.registry.metrics, m.operator ≠ .null ∧ p.request m = r ∧
    Found p m p'

theorem found_cycle (hn : 0 < p.engine.sinks.size) (hreducer : p.engine.reducer = some reducer)
    (hm : m ∈ p.registry.metrics) : Found p m p.cycle.2 := by
  have hstored : p.cycle.2.storedFor? (p.request m)
      = (p.engine.localPass p.settings.batched p.registry.metrics).2.stored? (p.engine.home m)
          m.reductionKey := stored?_cycle hn hreducer _ _
  constructor
  case last =>
    intro hwrites
    rw [hstored]
    exact ReductionEngine.stored?_of_lands hn hm hwrites
  case own =>
    intro hwrites halone
    rw [hstored]
    exact ReductionEngine.stored?_of_lands_of_alone hn hm hwrites halone
  case before =>
    intro hnone
    rw [hstored]
    by_contra hne
    obtain ⟨m', hm', hwrites, hhome, hkey⟩ := ReductionEngine.exists_of_stored?_ne hn hne
    have hreducible : m'.isReducible = true := by
      rw [lands, Bool.and_eq_true] at hwrites
      exact hwrites.1
    have hoverlaps := ReductionEngine.overlaps_iff.mpr ⟨hreducible, hhome, hkey⟩
    have hnot := hnone m' hm' hoverlaps
    rw [writes, hwrites] at hnot
    cases hnot

/-- The requests of a cycle are about metrics with an operator, written or not. One about a metric that
is written points at its value, as long as no other metric has its key. -/
theorem cycle_points (hn : 0 < p.engine.sinks.size) (hreducer : p.engine.reducer = some reducer) :
    Points p reducer p.cycle.2 := by
  constructor
  case received => exact reducer_cycle hn hreducer
  case shard =>
    intro r hr
    obtain ⟨m, -, -, rfl⟩ := ReductionEngine.mem_requestsFor.mp hr
    exact Nat.mod_lt _ hn
  case about =>
    intro r hr
    obtain ⟨m, hm, hnull, rfl⟩ := ReductionEngine.mem_requestsFor.mp hr
    exact ⟨m, hm, hnull, rfl, found_cycle hn hreducer hm⟩

/-- Two counters with one key, and one that has counted nothing, with one empty sink. -/
def threeCounters (batched : Bool) : Provider :=
  { plain with
    settings := { batched := batched }
    registry := (RegistryOperation.performAll Registry.perform Registry.clashing
      [.create (Registry.summed "a" "idle")]).2
    engine := { Registry.oneSink with reducer := some {} } }

theorem cycle_points_threeCounters :
    Points (threeCounters true) {} (threeCounters true).cycle.2 ∧
      ((threeCounters true).registry.metrics.map fun m =>
          (m.reductionKey, (threeCounters true).writes m))
        = [("a_idle_SUM", false), ("a_b_c_SUM", true), ("a_b_c_SUM", true)] := by
  refine ⟨cycle_points (by decide) rfl, ?_⟩
  decide +kernel

/-- The keys that a reducer is asked for in a cycle, and whether something is stored where the requests
say. -/
def asked (p : Provider) : List (String × Bool) :=
  ((p.cycle.2.engine.reducer.map Reducer.requests).getD []).map fun r =>
    (r.key, (p.cycle.2.storedFor? r).isSome)

/-- The reducer is asked for a counter that has counted nothing, for which there is nothing in the
sink, neither before nor behind the cycle. -/
theorem cycle_points_at_nothing :
    (threeCounters false).engine.sinks.toList.map Sink.data = [[]] ∧
      (threeCounters false).asked = [("a_idle", false), ("a_b_c", true), ("a_b_c", true)] ∧
      (threeCounters true).engine.sinks.toList.map Sink.data = [[]] ∧
      (threeCounters true).asked = [("a_idle", false), ("a_b_c", true), ("a_b_c", true)] := by
  decide +kernel

end Provider

end Telemetry
