import Telemetry.Provider.Basic

/-!
# Reduction cycles

A cycle writes every metric's reduced window to the sinks, one by one or in batches as the settings
say, and then tells the reducer. In the background a cycle falls due whenever another interval has
passed since the start; what is done at that very time comes before it.
-/
namespace Telemetry.Provider

/-- The metric of an identity, or the failure to know it. -/
def get (p : Provider) (id : MetricId) : Except Failure Metric :=
  match p.find? id with
  | some m => .ok m
  | none => .error (.invalidMetric id.hex)

/-- A result together with the provider whose sinks and reducer are in the state that comes with it.
-/
def withEngine (p : Provider) (r : α × ReductionEngine) : α × Provider :=
  (r.1, { p with engine := r.2 })

/-- Reduces one metric. -/
def reduce (p : Provider) (id : MetricId) : Except Failure Unit × Provider :=
  match p.get id with
  | .error failure => (.error failure, p)
  | .ok m => p.withEngine (p.engine.reduce m)

/-- Reduces every metric, one after the other. -/
def reduceAll (p : Provider) : ReductionReport × Provider :=
  p.withEngine (p.engine.reduceAll p.registry.metrics)

/-- Reduces every metric with one batch for each sink. -/
def reduceAllBatched (p : Provider) : ReductionReport × Provider :=
  p.withEngine (p.engine.reduceAllBatched p.registry.metrics)

/-- Tells the reducer about one metric. -/
def globalReduce (p : Provider) (id : MetricId) : Except Failure Provider :=
  (p.get id).map fun m =>
    { p with engine := p.engine.globalReduce p.settings.cohortSize m }

/-- Tells the reducer about every metric. -/
def globalReduceAll (p : Provider) (cohort : Nat) : ReductionReport × Provider :=
  p.withEngine (p.engine.globalReduceAll cohort p.registry.metrics)

/-- One cycle. The report is that of the sinks. -/
def cycle (p : Provider) : ReductionReport × Provider :=
  let (report, p) := if p.settings.batched then p.reduceAllBatched else p.reduceAll
  (report, (p.globalReduceAll p.settings.cohortSize).2)

/-- The number of cycles that run before a time of the clock: those that fall due earlier. A cycle
that falls due at the time itself runs only once time passes again. -/
def cyclesBefore (p : Provider) (time : Nat) : Nat :=
  match p.interval? with
  | none => 0
  | some interval => (time - 1) / interval

/-- The number of cycles that run while `ms` milliseconds pass. -/
def cyclesWithin (p : Provider) (ms : Nat) : Nat :=
  p.cyclesBefore (p.clock + ms) - p.cyclesBefore p.clock

/-- Lets time pass. -/
def wait (p : Provider) (ms : Nat) : Provider :=
  let p' := (p.cyclesWithin ms).fold (fun _ _ p => p.cycle.2) p
  { p' with clock := p.clock + ms }

end Telemetry.Provider
