import Telemetry.Proofs.Reduction.Batched

/-!
# What a reducer is told

In the global tier the reducer receives a request for every metric with an operator, whatever became
of the metric in the local tier. The request names the sink to which the local tier writes the metric
and the two parts of the key. Of several metrics with one key in one sink the value of the last stays
there.

## Main definitions

* `Metric.request`: the request about a metric.
* `ReductionEngine.keeper?`: the metric whose value stays at the place of another.

## Main statements

* `ReductionEngine.globalReduceAll_eq`: the requests of a pass over some metrics.
* `ReductionEngine.lookup_batchFor`: what a batch leaves under a key.
-/
namespace Telemetry

/-- What the reducer is told about a metric that is written to one of `n` sinks. -/
def Metric.request (n cohort : Nat) (m : Metric) : ReduceRequest where
  ns := m.ns
  name := m.name
  key := m.stringified
  shard := m.id.toNat % n
  operator := m.operator
  cohort := cohort

/-- The two parts of the key in a request make the key under which the local tier writes. -/
@[simp] theorem Metric.encode_request (n cohort : Nat) (m : Metric) :
    Key.encode (m.request n cohort).key (m.request n cohort).operator = m.reductionKey := rfl

namespace ReductionEngine

variable {e : ReductionEngine} {m m' : Metric} {metrics : List Metric} {n cohort : Nat}
  {reducer : Reducer}

/-- The requests about some metrics, in their order. -/
def requestsFor (n cohort : Nat) (metrics : List Metric) : List ReduceRequest :=
  (metrics.filter fun m => m.operator ≠ .null).map (Metric.request n cohort)

theorem mem_requestsFor {r : ReduceRequest} : r ∈ requestsFor n cohort metrics ↔
    ∃ m ∈ metrics, m.operator ≠ .null ∧ m.request n cohort = r := by
  simp [requestsFor, and_assoc]

/-- Metrics with different keys are asked for in different requests. -/
theorem nodup_requestsFor (hkeys : (metrics.map Metric.reductionKey).Nodup) (n cohort : Nat) :
    (requestsFor n cohort metrics).Nodup := by
  have hkeys' : ((requestsFor n cohort metrics).map fun r => Key.encode r.key r.operator).Nodup := by
    rw [requestsFor, List.map_map]
    exact hkeys.sublist (List.filter_sublist.map _)
  exact List.Nodup.of_map _ hkeys'

/-! ## The global tier -/

theorem requestFor?_eq (hn : 0 < n) (cohort : Nat) (m : Metric) :
    requestFor? n cohort m = if m.operator = .null then none else some (m.request n cohort) := by
  rw [requestFor?, shardAmong, if_neg hn.ne']
  rfl

theorem globalReduce_eq (hn : 0 < e.sinks.size) (hreducer : e.reducer = some reducer)
    (cohort : Nat) (m : Metric) :
    e.globalReduce cohort m
      = { e with reducer := some ⟨reducer.requests ++ requestsFor e.sinks.size cohort [m]⟩ } := by
  rw [globalReduce, requestFor?_eq hn, hreducer]
  by_cases hnull : m.operator = .null
  · simp [hnull, requestsFor, ← hreducer]
  · simp [hnull, requestsFor, Reducer.receive]

/-- One step of a pass: the report and the engine behind one more metric. -/
def tellNext (cohort : Nat) (p : ReductionReport × ReductionEngine) (m : Metric) :
    ReductionReport × ReductionEngine :=
  (p.1.add (if m.operator = .null then .skipped else .reduced), p.2.globalReduce cohort m)

theorem snd_foldl_tellNext (hn : 0 < e.sinks.size) (hreducer : e.reducer = some reducer)
    (cohort : Nat) (metrics : List Metric) (report : ReductionReport) :
    (metrics.foldl (tellNext cohort) (report, e)).2
      = { e with reducer := some ⟨reducer.requests ++ requestsFor e.sinks.size cohort metrics⟩ } := by
  induction metrics generalizing e reducer report with
  | nil => simp [requestsFor, ← hreducer]
  | cons m metrics ih =>
    have happend : requestsFor e.sinks.size cohort (m :: metrics)
        = requestsFor e.sinks.size cohort [m] ++ requestsFor e.sinks.size cohort metrics := by
      rw [requestsFor, requestsFor, requestsFor, ← List.map_append, ← List.filter_append,
        List.singleton_append]
    have hstep := globalReduce_eq hn hreducer cohort m
    have hn' : 0 < (e.globalReduce cohort m).sinks.size := by rwa [hstep]
    rw [List.foldl_cons, tellNext, ih hn' (by rw [hstep]), happend, ← List.append_assoc]
    rw [hstep]

/-- A pass leaves the sinks alone and adds a request for every metric with an operator. -/
theorem globalReduceAll_eq (hn : 0 < e.sinks.size) (hreducer : e.reducer = some reducer)
    (cohort : Nat) (metrics : List Metric) :
    (e.globalReduceAll cohort metrics).2
      = { e with reducer := some ⟨reducer.requests ++ requestsFor e.sinks.size cohort metrics⟩ } := by
  have hfold : e.globalReduceAll cohort metrics = metrics.foldl (tellNext cohort) ({}, e) := by
    rw [globalReduceAll, hreducer]
    rfl
  rw [hfold]
  exact snd_foldl_tellNext hn hreducer cohort metrics {}

/-! ## The local tier and the reducer -/

theorem reducer_reduceOne (e : ReductionEngine) (m : Metric) :
    (e.reduceOne m).2.reducer = e.reducer := by
  unfold reduceOne
  split
  · split <;> rfl
  · rfl

theorem reducer_reduceAll (e : ReductionEngine) (metrics : List Metric) :
    (e.reduceAll metrics).2.reducer = e.reducer := by
  have hfold : ∀ (e : ReductionEngine) (report : ReductionReport),
      (metrics.foldl reduceNext (report, e)).2.reducer = e.reducer := by
    induction metrics with
    | nil => exact fun _ _ => rfl
    | cons m metrics ih =>
      intro e report
      rw [List.foldl_cons, reduceNext, ih, reducer_reduceOne]
  rw [reduceAll]
  split
  · rfl
  · exact hfold e {}

theorem reducer_reduceAllBatched (e : ReductionEngine) (metrics : List Metric) :
    (e.reduceAllBatched metrics).2.reducer = e.reducer := by
  rw [reduceAllBatched]
  split <;> rfl

/-! ## The last metric of a key -/

/-- Whether another metric has something to write where a metric is written. -/
def overlaps (n : Nat) (m m' : Metric) : Bool :=
  m'.isReducible && decide (m'.id.toNat % n = m.id.toNat % n ∧ m'.reductionKey = m.reductionKey)

/-- The last of some metrics that have something to write where a metric is written. -/
def keeper? (n : Nat) (metrics : List Metric) (m : Metric) : Option Metric :=
  (metrics.filter (overlaps n m)).getLast?

theorem mem_of_keeper? (h : keeper? n metrics m = some m') :
    m' ∈ metrics ∧ overlaps n m m' = true :=
  List.mem_filter.mp (List.mem_of_getLast? h)

theorem exists_keeper? (hm : m ∈ metrics) (hreducible : m.isReducible = true) :
    ∃ m', keeper? n metrics m = some m' := by
  have hself : overlaps n m m = true := by simp [overlaps, hreducible]
  have hmem : m ∈ metrics.filter (overlaps n m) := List.mem_filter.mpr ⟨hm, hself⟩
  exact ⟨_, List.getLast?_eq_some_getLast (List.ne_nil_of_mem hmem)⟩

theorem keeper?_append_singleton (n : Nat) (metrics : List Metric) (last m : Metric) :
    keeper? n (metrics ++ [last]) m
      = if overlaps n m last then some last else keeper? n metrics m := by
  rw [keeper?, keeper?, List.filter_append, List.getLast?_append]
  by_cases h : overlaps n m last = true
  · simp [h]
  · simp [h]

/-- Under the key of a metric a batch leaves the value of the last metric with that key. -/
theorem lookup_batchFor (n : Nat) (metrics : List Metric) (m : Metric) :
    (batchFor n (m.id.toNat % n) metrics).reverse.lookup m.reductionKey
      = (keeper? n metrics m).bind fun m' => (localValue? m').map ReducedValue.encode := by
  induction metrics using List.reverseRecOn with
  | nil => rfl
  | append_singleton metrics last ih =>
    rw [batchFor_append, List.reverse_append, List.lookup_append, ih, keeper?_append_singleton]
    cases h : localValue? last with
    | none =>
      have hnot := localValue?_eq_none_iff.mp h
      simp [batchFor_singleton_of_none h, overlaps, hnot]
    | some value =>
      have hreducible := isReducible_of_localValue? h
      rw [batchFor_singleton_of_some h]
      by_cases hhome : last.id.toNat % n = m.id.toNat % n
      · by_cases hkey : last.reductionKey = m.reductionKey
        · simp [overlaps, hhome, hkey, hreducible, h]
        · have hne : (m.reductionKey == last.reductionKey) = false := by
            rw [beq_eq_false_iff_ne]
            exact Ne.symm hkey
          simp [overlaps, hhome, hkey, List.lookup, hne]
      · simp [overlaps, hhome]

end ReductionEngine

end Telemetry
