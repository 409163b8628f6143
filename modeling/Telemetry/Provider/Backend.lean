import Telemetry.Metric.Basic

/-!
# Storage backends

A backend makes a context when a metric is created and gets it back when the metric is removed. The
provider knows backends by name. A `Handover` records that a context was made, or handed back, or
that a backend refused to make one.
-/
namespace Telemetry

/-- How a context is made. -/
inductive Making where
  | create
  /-- For storage that exists. -/
  | openExisting
deriving DecidableEq, Repr

/-- The word for a making inside messages. -/
def Making.name : Making → String
  | create => "create"
  | openExisting => "open"

/-- How a context is handed back. -/
inductive Release where
  /-- The storage stays. -/
  | close
  | destroy
deriving DecidableEq, Repr

/-- The word for a release inside messages. -/
def Release.name : Release → String
  | close => "close"
  | destroy => "destroy"

/-- What happened between a provider and its backends. -/
inductive Handover where
  | made (making : Making) (context : BackendContext)
  | refused (making : Making) (backend : String) (provider : UInt16) (config : Json)
  | released (release : Release) (context : BackendContext) (failure? : Option Failure)

namespace Handover

/-- The context that was made, if one was. -/
def made? : Handover → Option BackendContext
  | made _ context => some context
  | _ => none

/-- The context that was handed back, whether the backend was content or not. -/
def released? : Handover → Option BackendContext
  | released _ context _ => some context
  | _ => none

/-- The number of contexts that were made and not taken back, according to a ledger. -/
def outstanding (ledger : List Handover) : Nat :=
  (ledger.filterMap made?).length - ledger.countP fun
    | released _ _ none => true
    | _ => false

end Handover

/-- A storage backend, given by what it refuses. It may look back on all that happened between the
provider and its backends, given newest first, so it may have a state: what it has been through. -/
structure Backend where
  name : String
  /-- Why no context is made for a configuration, if so. -/
  makeFailure? : List Handover → Making → UInt16 → Json → Option Failure
  /-- What goes wrong when a context is handed back, if anything. -/
  releaseFailure? : List Handover → Release → BackendContext → Option Failure

/-- Makes a context, or says why there is none. -/
def Backend.make (b : Backend) (before : List Handover) (making : Making) (ticket : Nat)
    (provider : UInt16) (config : Json) : Except Failure BackendContext :=
  match b.makeFailure? before making provider config with
  | some failure => .error failure
  | none => .ok ⟨ticket, b.name, provider, config⟩

/-- Hands a context back. The context is gone even if the backend fails. -/
def Backend.release (b : Backend) (before : List Handover) (release : Release)
    (context : BackendContext) : Handover :=
  .released release context (b.releaseFailure? before release context)

/-- The backend that stores nothing. It takes back only the contexts it made. -/
def Backend.dummy : Backend :=
  { name := "dummy"
    makeFailure? := fun _ _ _ _ => none
    releaseFailure? := fun _ release context =>
      if context.owner = "dummy" then none
      else some (.invalidArgs (release.name ++ ": context not owned by dummy backend")) }

/-- Backends by name. -/
structure BackendRegistry where
  backends : List Backend := []

namespace BackendRegistry

/-- The backend of a name. -/
def find? (r : BackendRegistry) (name : String) : Option Backend :=
  r.backends.find? fun b => b.name = name

/-- The backend of a name, or the failure to know it. -/
def get (r : BackendRegistry) (name : String) : Except Failure Backend :=
  match r.find? name with
  | some b => .ok b
  | none => .error (.invalidBackend name)

/-- Adds a backend, unless there is one of its name. -/
def register (r : BackendRegistry) (b : Backend) : Except Failure BackendRegistry :=
  if (r.find? b.name).isSome then
    .error (.invalidBackend ("'" ++ b.name ++ "' already registered"))
  else .ok ⟨b :: r.backends⟩

/-- The names of the backends in ascending order. -/
def names (r : BackendRegistry) : List String :=
  (r.backends.map Backend.name).mergeSort fun a b => !(decide (b < a))

end BackendRegistry

end Telemetry
