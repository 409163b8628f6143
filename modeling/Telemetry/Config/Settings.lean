import Telemetry.Failure
import Telemetry.Json
import Telemetry.Number.Integer
import Telemetry.Text.Blank

/-!
# Provider settings

A provider is tuned by a JSON text. Every setting has a default, so no text and a blank text are
allowed; unknown and repeated settings are not. An array gives the settings by position.
-/
namespace Telemetry

/-- How a provider is tuned. -/
structure Settings where
  /-- The number of samples for which every metric has room. -/
  bufferCapacity : Nat := 160000
  /-- The most samples that one fetch returns. -/
  maxFetchCount : Nat := 160000
  /-- The time between two reduction cycles in milliseconds; none if there are no cycles. -/
  intervalMs? : Option Nat := none
  /-- The number of providers that take part in a global reduction. -/
  cohortSize : Nat := 1
  /-- Whether a cycle writes to every sink in one batch. -/
  batched : Bool := false
deriving DecidableEq, Repr

namespace Settings

/-- The names of the settings, in the order of their positions. -/
def names : List String :=
  ["buffer_capacity", "max_fetch_count", "reduction_interval_ms", "cohort_size",
    "batched_reduction"]

/-- Reads a number of a range. -/
def readNat (range : IntegerRange) : Json → Option Nat
  | .integer n => if range.contains n then some n.toNat else none
  | _ => none

/-- The settings with one of them changed. -/
def set (s : Settings) (name : String) (value : Json) : Option Settings :=
  match name, value with
  | "buffer_capacity", v => (readNat .word64 v).map fun n => { s with bufferCapacity := n }
  | "max_fetch_count", v => (readNat .word64 v).map fun n => { s with maxFetchCount := n }
  | "reduction_interval_ms", .null => some { s with intervalMs? := none }
  | "reduction_interval_ms", v => (readNat .word64 v).map fun n => { s with intervalMs? := some n }
  | "cohort_size", v => (readNat .word32 v).map fun n => { s with cohortSize := n }
  | "batched_reduction", .bool b => some { s with batched := b }
  | _, _ => none

/-- The settings of a JSON value. -/
def ofJson? : Json → Option Settings
  | .object members =>
    if (members.map Prod.fst).Nodup then
      members.foldlM (fun s (name, value) => s.set name value) {}
    else none
  | .array items =>
    if items.length ≤ names.length then
      (names.zip items).foldlM (fun s (name, value) => s.set name value) {}
    else none
  | _ => none

/-- Refuses settings under which a provider cannot work. -/
def check (s : Settings) : Except Failure Settings :=
  if s.bufferCapacity = 0 then .error (.invalidConfig "buffer_capacity must be > 0")
  else if s.maxFetchCount = 0 then .error (.invalidConfig "max_fetch_count must be > 0")
  else if s.cohortSize = 0 then .error (.invalidConfig "cohort_size must be > 0")
  else if s.intervalMs? = some 0 then
    .error (.invalidConfig "reduction_interval_ms must be > 0")
  else .ok s

/-- The settings of a text, if there is one. -/
def ofText? (text : Option String) : Except Failure Settings :=
  match text with
  | none => check {}
  | some s =>
    if (Text.trim s.toList).isEmpty then check {}
    else match (Json.parse? s).bind ofJson? with
      | some settings => check settings
      | none => .error (.invalidConfig "provider config: not a settings object")

/-- The time between two reduction cycles in nanoseconds. -/
def intervalNs? (s : Settings) : Option Nat := s.intervalMs?.map (· * 1000000)

end Settings

end Telemetry
