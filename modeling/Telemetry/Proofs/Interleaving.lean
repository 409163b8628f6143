import Telemetry.Interleaving
import Mathlib

/-!
# Invariants of interleavings

What one turn preserves holds after every schedule, and what comes to hold in the course of a
schedule comes to hold at one turn. To say what happened on the way, the turns keep a log.

## Main definitions

* `Interleaving.log`: what the turns of a schedule note down.

## Main statements

* `Interleaving.run_induction`: from one turn to a schedule.
* `Interleaving.log_induction`: the same with the log of the turns.
* `Interleaving.exists_turn`: the turn at which something came to hold.
-/
namespace Telemetry.Interleaving

variable {σ κ : Type} {step : σ → κ → σ × κ} {s : Interleaving σ κ} {call call' : κ} {i j : Nat}
  {schedule : List Nat}

/-! ## Turns -/

theorem advance_of_none (h : s.calls[i]? = none) : s.advance step i = s := by
  simp only [advance, h]

theorem advance_of_some (h : s.calls[i]? = some call) :
    s.advance step i = ⟨(step s.state call).1, s.calls.set i (step s.state call).2⟩ := by
  simp only [advance, h]

theorem getElem?_advance_self (h : s.calls[i]? = some call) :
    (s.advance step i).calls[i]? = some (step s.state call).2 := by
  rw [advance_of_some h]
  exact List.getElem?_set_self (List.getElem?_eq_some_iff.mp h).1

/-- A turn is of one call. -/
theorem getElem?_advance_of_ne (s : Interleaving σ κ) (h : i ≠ j) :
    (s.advance step i).calls[j]? = s.calls[j]? := by
  cases hi : s.calls[i]? with
  | none => rw [advance_of_none hi]
  | some call =>
    rw [advance_of_some hi]
    exact List.getElem?_set_ne h

/-- A call that has nothing more to do lets its turn pass. -/
theorem advance_of_idle (h : s.calls[i]? = some call) (hidle : step s.state call = (s.state, call)) :
    s.advance step i = s := by
  obtain ⟨hi, rfl⟩ := List.getElem?_eq_some_iff.mp h
  rw [advance_of_some h, hidle, List.set_getElem_self]

/-- What no step of a call changes, no turn changes in any call. -/
theorem map_calls_advance {α : Type} {f : κ → α} (hf : ∀ state call, f (step state call).2 = f call)
    (s : Interleaving σ κ) (i : Nat) : (s.advance step i).calls.map f = s.calls.map f := by
  apply List.ext_getElem?
  intro j
  rw [List.getElem?_map, List.getElem?_map]
  by_cases hij : i = j
  · subst hij
    cases h : s.calls[i]? with
    | none => rw [advance_of_none h, h]
    | some call => rw [getElem?_advance_self h, Option.map_some, Option.map_some, hf]
  · rw [getElem?_advance_of_ne s hij]

/-- After a turn a call is the one that made a step, or another one that is where it was. -/
theorem of_getElem?_set {calls : List κ} {other : κ} (h : (calls.set i call')[j]? = some other) :
    (i = j ∧ call' = other) ∨ (i ≠ j ∧ calls[j]? = some other) := by
  by_cases hij : i = j
  · subst hij
    rw [List.getElem?_set_self (by simpa using (List.getElem?_eq_some_iff.mp h).1)] at h
    exact .inl ⟨rfl, Option.some.inj h⟩
  · rw [List.getElem?_set_ne hij] at h
    exact .inr ⟨hij, h⟩

/-! ## Schedules -/

/-- What every turn preserves holds after every schedule. -/
theorem run_induction {P : Interleaving σ κ → Prop} (schedule : List Nat) (hstart : P s)
    (hadvance : ∀ s i, P s → P (s.advance step i)) : P (s.run step schedule) := by
  induction schedule generalizing s with
  | nil => exact hstart
  | cons i schedule ih => exact ih (hadvance s i hstart)

/-- What did not hold before a schedule and holds after it came to hold at one of its turns. -/
theorem exists_turn {P : Interleaving σ κ → Prop} (hstart : ¬ P s)
    (hend : P (s.run step schedule)) :
    ∃ before i after, schedule = before ++ i :: after ∧ ¬ P (s.run step before) ∧
      P ((s.run step before).advance step i) := by
  induction schedule generalizing s with
  | nil => exact absurd hend hstart
  | cons i schedule ih =>
    by_cases hi : P (s.advance step i)
    · exact ⟨[], i, schedule, rfl, hstart, hi⟩
    · obtain ⟨before, j, after, rfl, hbefore, hturn⟩ := ih hi hend
      exact ⟨i :: before, j, after, rfl, hbefore, hturn⟩

/-! ## Logs -/

variable {α : Type} {note : Interleaving σ κ → Nat → List α}

/-- What the turns of a schedule note down, one after the other. A turn notes something about the
situation before it and the number of the call whose turn it is. -/
def log (step : σ → κ → σ × κ) (note : Interleaving σ κ → Nat → List α) (s : Interleaving σ κ) :
    List Nat → List α
  | [] => []
  | i :: schedule => note s i ++ log step note (s.advance step i) schedule

/-- What every turn preserves, as it adds to the log, holds of the log and the situation behind every
schedule. -/
theorem log_induction {P : List α → Interleaving σ κ → Prop} (schedule : List Nat)
    (hstart : P [] s)
    (hadvance : ∀ noted s i, P noted s → P (noted ++ note s i) (s.advance step i)) :
    P (log step note s schedule) (s.run step schedule) := by
  suffices h : ∀ noted s, P noted s →
      P (noted ++ log step note s schedule) (s.run step schedule) from h [] s hstart
  induction schedule with
  | nil =>
    intro noted s h
    rw [log, List.append_nil]
    exact h
  | cons i schedule ih =>
    intro noted s h
    rw [log, ← List.append_assoc]
    exact ih _ _ (hadvance noted s i h)

/-! ## What the calls have together -/

variable (f : κ → List α)

/-- What a call has and what the others have. -/
theorem perm_flatMap_of_getElem? {calls : List κ} (h : calls[i]? = some call) :
    (calls.flatMap f).Perm (f call ++ (calls.eraseIdx i).flatMap f) := by
  obtain ⟨hi, rfl⟩ := List.getElem?_eq_some_iff.mp h
  rw [← List.flatMap_cons]
  exact (List.getElem_cons_eraseIdx_perm hi).symm.flatMap_right f

theorem perm_flatMap_set {calls : List κ} (h : calls[i]? = some call) (call' : κ) :
    ((calls.set i call').flatMap f).Perm (f call' ++ (calls.eraseIdx i).flatMap f) := by
  obtain ⟨hi, rfl⟩ := List.getElem?_eq_some_iff.mp h
  rw [← List.flatMap_cons]
  exact (List.set_perm_cons_eraseIdx hi call').flatMap_right f

theorem countP_set {calls : List κ} (p : κ → Bool) (h : calls[i]? = some call) (call' : κ) :
    (calls.set i call').countP p + (if p call then 1 else 0)
      = calls.countP p + if p call' then 1 else 0 := by
  obtain ⟨hi, rfl⟩ := List.getElem?_eq_some_iff.mp h
  rw [← (List.getElem_cons_eraseIdx_perm hi).countP_eq,
    (List.set_perm_cons_eraseIdx hi call').countP_eq, List.countP_cons, List.countP_cons]
  omega

/-! ## What the calls are for -/

variable {β : Type} {R : β → κ → Prop} {requests : List β} {calls : List κ}

theorem exists_of_forall₂ (h : List.Forall₂ R requests calls) (hi : calls[i]? = some call) :
    ∃ request, requests[i]? = some request ∧ R request call := by
  induction h generalizing i with
  | nil => simp at hi
  | cons hr _ ih =>
    cases i with
    | zero =>
      obtain rfl := Option.some.inj hi
      exact ⟨_, rfl, hr⟩
    | succ i => exact ih hi

theorem forall₂_set (h : List.Forall₂ R requests calls) (hi : calls[i]? = some call)
    (hstep : ∀ request, R request call → R request call') :
    List.Forall₂ R requests (calls.set i call') := by
  induction h generalizing i with
  | nil => exact .nil
  | cons hr hrest ih =>
    cases i with
    | zero =>
      obtain rfl := Option.some.inj hi
      exact .cons (hstep _ hr) hrest
    | succ i => exact .cons hr (ih hi)

end Telemetry.Interleaving
