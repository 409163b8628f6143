import Telemetry.Metric.Registry
import Telemetry.Reduction.Sink
import Telemetry.Reduction.Value

/-!
# Reduction in two tiers

In the local tier every metric's window is reduced and written to the sink of the metric's identity
modulo the number of sinks, under the metric's reduction key. In the global tier the reducer is told
for every metric where its value is and how many providers take part. A metric that cannot be
written does not keep the others from being written.
-/
namespace Telemetry

/-- What became of the metrics in a pass over a registry. -/
structure ReductionReport where
  reduced : Nat := 0
  skipped : Nat := 0
  failed : Nat := 0
deriving DecidableEq, Repr

/-- What became of one metric. -/
inductive ReductionOutcome where
  | reduced
  /-- There was nothing to write. -/
  | skipped
  | failed (failure : Failure)
deriving DecidableEq, Repr

/-- The report with one more outcome. -/
def ReductionReport.add (r : ReductionReport) : ReductionOutcome → ReductionReport
  | .reduced => { r with reduced := r.reduced + 1 }
  | .skipped => { r with skipped := r.skipped + 1 }
  | .failed _ => { r with failed := r.failed + 1 }

/-- The report with the result of writing a batch of some size. A batch fails as a whole. -/
def ReductionReport.addBatch (r : ReductionReport) :
    Except Failure Nat × Nat → ReductionReport
  | (.ok n, _) => { r with reduced := r.reduced + n }
  | (.error _, size) => { r with failed := r.failed + size }

/-- The sinks and the reducer that a provider writes to. -/
structure ReductionEngine where
  sinks : Array Sink := #[]
  reducer : Option Reducer := none
deriving Repr

namespace ReductionEngine

/-- The sink of an identity among `n` sinks. -/
def shardAmong (n : Nat) (id : MetricId) : Option Nat :=
  if n = 0 then none else some (id.toNat % n)

/-- The sink of an identity. -/
def shardFor? (e : ReductionEngine) (id : MetricId) : Option Nat := shardAmong e.sinks.size id

/-- What is to be written for a metric. -/
def localValue? (m : Metric) : Option ReducedValue :=
  ReducedValue.ofWindow m.operator m.kind m.buffer.window

/-- Writes a value in place of what a sink holds under its key. What was deleted stays deleted if the
value cannot be stored. -/
def write (s : Sink) (key : String) (value : Bytes) : Except Failure Unit × Sink :=
  match s.erase key with
  | .error failure => (.error failure, s)
  | .ok erased =>
    match erased.put key value with
    | .error failure => (.error failure, erased)
    | .ok written => (.ok (), written)

/-- Reduces one metric into its sink. -/
def reduceOne (e : ReductionEngine) (m : Metric) : ReductionOutcome × ReductionEngine :=
  match (e.shardFor? m.id).bind fun i => e.sinks[i]?.map fun s => (i, s), localValue? m with
  | some (i, s), some value =>
    match write s m.reductionKey value.encode with
    | (.ok (), s) => (.reduced, { e with sinks := e.sinks.setIfInBounds i s })
    | (.error failure, s) => (.failed failure, { e with sinks := e.sinks.setIfInBounds i s })
  | _, _ => (.skipped, e)

/-- Reduces one metric, or says why it could not be written. -/
def reduce (e : ReductionEngine) (m : Metric) : Except Failure Unit × ReductionEngine :=
  match e.reduceOne m with
  | (.failed failure, e) => (.error failure, e)
  | (_, e) => (.ok (), e)

/-- Reduces every metric, one after the other. Without sinks nothing is looked at. -/
def reduceAll (e : ReductionEngine) (metrics : List Metric) : ReductionReport × ReductionEngine :=
  if e.sinks.isEmpty then ({}, e)
  else metrics.foldl (fun (report, e) m =>
    let (outcome, e) := e.reduceOne m
    (report.add outcome, e)) ({}, e)

/-- Sorts what is to be written into one batch for each of `n` sinks, in the order of the metrics, and
counts the metrics of which there is nothing to write. -/
def collect (n : Nat) (metrics : List Metric) : Nat × Array (List (String × Bytes)) :=
  metrics.foldl (fun (skipped, batches) m =>
    match localValue? m with
    | none => (skipped + 1, batches)
    | some value =>
      (skipped, batches.modify (m.id.toNat % n) (· ++ [(m.reductionKey, value.encode)])))
    (0, Array.replicate n [])

/-- Writes a batch in place of what a sink holds under its keys. What was deleted stays deleted if
the batch cannot be stored. -/
def writeBatch (s : Sink) (batch : List (String × Bytes)) : Except Failure Nat × Sink :=
  match s.multiErase (batch.map Prod.fst) with
  | .error failure => (.error failure, s)
  | .ok erased =>
    match erased.multiPut batch with
    | .error failure => (.error failure, erased)
    | .ok written => (.ok batch.length, written)

/-- Writes to every sink its batch, unless it is empty. The results are those of the batches that
were written, in the order of the sinks. -/
def writeBatches : List (Sink × List (String × Bytes)) → List (Except Failure Nat) × List Sink
  | [] => ([], [])
  | (s, batch) :: rest =>
    let (results, sinks) := writeBatches rest
    if batch.isEmpty then (results, s :: sinks)
    else
      let (result, s) := writeBatch s batch
      (result :: results, s :: sinks)

/-- Reduces every metric with one batch for each sink. -/
def reduceAllBatched (e : ReductionEngine) (metrics : List Metric) :
    ReductionReport × ReductionEngine :=
  if e.sinks.isEmpty then ({}, e)
  else
    let (skipped, batches) := collect e.sinks.size metrics
    let (results, sinks) := writeBatches (e.sinks.toList.zip batches.toList)
    let sizes := (batches.toList.filter fun batch => !batch.isEmpty).map List.length
    ((results.zip sizes).foldl .addBatch { skipped := skipped }, { e with sinks := sinks.toArray })

/-- What the reducer is told about a metric; nothing about metrics that are not reduced. -/
def requestFor? (n cohort : Nat) (m : Metric) : Option ReduceRequest :=
  if m.operator = .null then none
  else some
    { ns := m.ns
      name := m.name
      key := m.stringified
      shard := (shardAmong n m.id).getD 0
      operator := m.operator
      cohort := cohort }

/-- Tells the reducer about one metric. -/
def globalReduce (e : ReductionEngine) (cohort : Nat) (m : Metric) : ReductionEngine :=
  match e.reducer, requestFor? e.sinks.size cohort m with
  | some reducer, some request => { e with reducer := some (reducer.receive request) }
  | _, _ => e

/-- Tells the reducer about every metric. Without a reducer nothing is looked at. -/
def globalReduceAll (e : ReductionEngine) (cohort : Nat) (metrics : List Metric) :
    ReductionReport × ReductionEngine :=
  if e.reducer.isNone then ({}, e)
  else metrics.foldl (fun (report, e) m =>
    (report.add (if m.operator = .null then .skipped else .reduced), e.globalReduce cohort m))
    ({}, e)

end ReductionEngine

end Telemetry
