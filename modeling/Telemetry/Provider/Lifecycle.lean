import Telemetry.Provider.Basic

/-!
# Creating and removing metrics

A metric is created in steps: its identity is looked for, its backend makes a context, and it is put
into the registry; a context that was made for a metric that lost its place meanwhile is handed
back. Removal takes the metric out of the registry and then hands its context back. What a backend
has against taking a context back does not stop a removal.
-/
namespace Telemetry

/-- How the context for a description is made. -/
def BackendSpec.making (spec : BackendSpec) : Making :=
  if spec.openExisting then .openExisting else .create

/-- How the context of a metric is handed back that could not be registered: what was created for it
is destroyed, what was opened is closed. -/
def MetricSpec.withdrawal (spec : MetricSpec) : Release :=
  match spec.backend with
  | some backend => if backend.openExisting then .close else .destroy
  | none => .close

namespace Provider

/-- The metric of a description, unless there is one of its identity. -/
def describe (p : Provider) (spec : MetricSpec) : Except Failure Metric := do
  let m ← Metric.ofSpec spec p.settings.bufferCapacity
  if p.registry.contains m.id then .error (.metricExists m.stringified) else return m

/-- Makes a context. -/
def makeContext (p : Provider) (spec : BackendSpec) : Except Failure BackendContext × Provider :=
  match p.backends.get spec.name with
  | .error failure => (.error failure, p)
  | .ok backend =>
    match backend.make p.ledger spec.making p.nextTicket p.id spec.config with
    | .error failure =>
      (.error failure, p.record (.refused spec.making backend.name p.id spec.config))
    | .ok context =>
      (.ok context, { p.record (.made spec.making context) with nextTicket := p.nextTicket + 1 })

/-- The metric with the context that its description asks for. -/
def attach (p : Provider) (spec : MetricSpec) (m : Metric) : Except Failure Metric × Provider :=
  match spec.backend with
  | none => (.ok m, p)
  | some backend =>
    match p.makeContext backend with
    | (.error failure, p) => (.error failure, p)
    | (.ok context, p) => (.ok { m with context := some context }, p)

/-- Puts a metric into the registry. -/
def insert (p : Provider) (m : Metric) : Except Failure Provider :=
  (p.registry.insert m).map fun registry => { p with registry := registry }

/-- Hands the context of a metric back, if it has one. -/
def release (p : Provider) (how : Release) (m : Metric) : Provider :=
  match m.context with
  | none => p
  | some context =>
    match p.backends.find? context.owner with
    | none => p
    | some backend => p.record (backend.release p.ledger how context)

/-- Creates a metric. -/
def create (p : Provider) (spec : MetricSpec) : Except Failure Metric × Provider :=
  match p.describe spec with
  | .error failure => (.error failure, p)
  | .ok m =>
    match p.attach spec m with
    | (.error failure, p) => (.error failure, p)
    | (.ok m, p) =>
      match p.insert m with
      | .ok p => (.ok m, p)
      | .error failure => (.error failure, p.release spec.withdrawal m)

/-- Records samples of a metric, up to the first that is refused. -/
def recordAll (p : Provider) (id : MetricId) : List Sample → Except Failure Unit × Provider
  | [] => (.ok (), p)
  | s :: rest =>
    match p.update? id s.value s.time s.writer with
    | none => (.error (.invalidMetric id.hex), p)
    | some (.error failure) => (.error failure, p)
    | some (.ok p) => p.recordAll id rest

/-- Creates a metric and records samples of it. -/
def createFilled (p : Provider) (spec : MetricSpec) (samples : List Sample) :
    Except Failure Metric × Provider :=
  match p.create spec with
  | (.error failure, p) => (.error failure, p)
  | (.ok m, p) =>
    let (r, p) := p.recordAll m.id samples
    (r.map fun _ => m, p)

/-- Takes a metric out of the registry. -/
def take (p : Provider) (id : MetricId) : Except Failure (Metric × Provider) :=
  (p.registry.remove id).map fun (m, registry) => (m, { p with registry := registry })

/-- Removes a metric and hands its context back. -/
def withdraw (p : Provider) (how : Release) (id : MetricId) : Except Failure Provider :=
  (p.take id).map fun (m, p) => p.release how m

/-- Removes a metric; its storage stays. -/
def remove (p : Provider) (id : MetricId) : Except Failure Provider := p.withdraw .close id

/-- Removes a metric and its storage. -/
def destroy (p : Provider) (id : MetricId) : Except Failure Provider := p.withdraw .destroy id

/-- Removes every metric and tells how many there were; their storage stays. -/
def removeAll (p : Provider) : Nat × Provider :=
  let (metrics, registry) := p.registry.removeAll
  (metrics.length, metrics.foldl (fun p m => p.release .close m) { p with registry := registry })

/-- Stops the work in the background and removes every metric. A finalized provider stays as it is.
-/
def finalize (p : Provider) : Provider :=
  if p.finalized then p
  else ({ p with finalized := true, interval? := none } : Provider).removeAll.2

end Provider

end Telemetry
