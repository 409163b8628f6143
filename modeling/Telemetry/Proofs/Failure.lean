import Telemetry.Failure
import Mathlib

/-!
# Operations in sequence

An operation that goes on with the result of another one succeeds if and only if both do, and fails
with the first failure.
-/
namespace Telemetry.Failure

variable {α β : Type} {x : Except Failure α} {f : α → Except Failure β} {failure : Failure} {b : β}

theorem bind_eq_ok_iff : (x >>= f) = .ok b ↔ ∃ a, x = .ok a ∧ f a = .ok b := by
  cases x with
  | ok a => simp [bind, Except.bind]
  | error e => simp [bind, Except.bind]

theorem bind_eq_error_iff :
    (x >>= f) = .error failure ↔ x = .error failure ∨ ∃ a, x = .ok a ∧ f a = .error failure := by
  cases x with
  | ok a => simp [bind, Except.bind]
  | error e => simp [bind, Except.bind]

theorem map_eq_ok_iff {g : α → β} : x.map g = .ok b ↔ ∃ a, x = .ok a ∧ g a = b := by
  cases x with
  | ok a => simp [Except.map]
  | error e => simp [Except.map]

theorem map_eq_error_iff {g : α → β} : x.map g = .error failure ↔ x = .error failure := by
  cases x with
  | ok a => simp [Except.map]
  | error e => simp [Except.map]

end Telemetry.Failure
