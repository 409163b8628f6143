/-!
# Interleavings

Calls on a shared state are in progress side by side. Each call goes in atomic steps; a schedule
says whose turn it is. What holds of every schedule holds whatever the timing.

## Main definitions

* `Interleaving`: a shared state and the calls in progress on it.
* `Interleaving.run`: the situation after a schedule.
-/
namespace Telemetry

/-- A shared state and the calls in progress on it. -/
structure Interleaving (σ κ : Type) where
  state : σ
  calls : List κ

namespace Interleaving

variable {σ κ : Type}

/-- The call of a number makes a step; a number without a call stands for a pause. -/
def advance (step : σ → κ → σ × κ) (s : Interleaving σ κ) (i : Nat) : Interleaving σ κ :=
  match s.calls[i]? with
  | none => s
  | some call =>
    let (state, call) := step s.state call
    { state := state, calls := s.calls.set i call }

/-- The situation after a schedule. -/
def run (step : σ → κ → σ × κ) (s : Interleaving σ κ) (schedule : List Nat) : Interleaving σ κ :=
  schedule.foldl (advance step) s

@[simp] theorem run_nil (step : σ → κ → σ × κ) (s : Interleaving σ κ) : s.run step [] = s := rfl

@[simp] theorem run_cons (step : σ → κ → σ × κ) (s : Interleaving σ κ) (i : Nat)
    (schedule : List Nat) : s.run step (i :: schedule) = (s.advance step i).run step schedule := rfl

theorem run_append (step : σ → κ → σ × κ) (s : Interleaving σ κ) (first second : List Nat) :
    s.run step (first ++ second) = (s.run step first).run step second := by
  simp [run, List.foldl_append]

end Interleaving

end Telemetry
