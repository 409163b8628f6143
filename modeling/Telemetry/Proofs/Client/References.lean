import Telemetry.Client.References
import Telemetry.Proofs.Client.Reached
import Telemetry.Proofs.Interleaving

/-!
# Counted references

A handle is in use as long as it has references. The release that drops the last one lets go of the
endpoint and then counts one open handle less, and other calls may have their turns in between. They
find a handle without references then, and can do nothing to it.

## Main definitions

* `ReferenceCall.Does`: what one turn of a call can do.
* `Client.events`: what calls did to references, and which call did it.
* `Client.Phase`: where a handle is on its way from being opened to being closed.
* `Client.Balanced`: what holds of the references of all handles.

## Main statements

* `ReferenceCall.does_step`: every turn does one of these things.
* `Client.InProgress.advance`: the invariant that every turn preserves.
* `Client.balanced_interleave`: what holds of the references after any turns.
-/
namespace Telemetry

/-! ## One turn -/

/-- Something that was done to the references of a handle. -/
inductive ReferenceEvent where
  /-- A reference was taken. -/
  | took (handle : Nat)
  /-- A reference was dropped. -/
  | dropped (handle : Nat)
  /-- The endpoint was let go of. -/
  | letGo (handle : Nat)
  /-- An open handle less was counted. -/
  | counted (handle : Nat)
deriving DecidableEq

/-- The handle to which something was done. -/
@[simp]
def ReferenceEvent.handle : ReferenceEvent → Nat
  | took n | dropped n | letGo n | counted n => n

namespace Client

variable {c c' : Client} {n m : Nat} {x y : Handle}

/-- The number of handles that have references. -/
def inUse (c : Client) : Nat := c.handles.toList.countP fun h => 0 < h.refs

theorem getElem?_setHandle_self (h : c.handles[n]? = some x) (y : Handle) :
    (c.setHandle n y).handles[n]? = some y :=
  Array.getElem?_setIfInBounds_self_of_lt (Array.getElem?_eq_some_iff.mp h).1

theorem getElem?_setHandle_of_ne (c : Client) (h : n ≠ m) (y : Handle) :
    (c.setHandle n y).handles[m]? = c.handles[m]? :=
  Array.getElem?_setIfInBounds_ne h

theorem size_setHandle (c : Client) (n : Nat) (y : Handle) :
    (c.setHandle n y).handles.size = c.handles.size := Array.size_setIfInBounds

theorem inUse_setHandle (h : c.handles[n]? = some x) (y : Handle) :
    (c.setHandle n y).inUse + (if 0 < x.refs then 1 else 0)
      = c.inUse + if 0 < y.refs then 1 else 0 := by
  have hset := Interleaving.countP_set (fun h : Handle => 0 < h.refs) (Array.getElem?_toList ▸ h) y
  simpa [inUse, setHandle] using hset

theorem inUse_push (h : c'.handles = c.handles.push x) :
    c'.inUse = c.inUse + if 0 < x.refs then 1 else 0 := by
  simp [inUse, h, List.countP_append, List.countP_singleton]

end Client

namespace ReferenceCall

variable {c c' : Client} {call call' : ReferenceCall} {n : Nat} {x : Handle}

/-- The handle that a call is in the middle of closing. -/
def closing? : ReferenceCall → Option Nat
  | dropEndpoint n | countClosed n => some n
  | openHandle _ _ _ | addRef _ | release _ | finished _ => none

@[simp] theorem closing?_openHandle (address : String) (provider : UInt16) (metric : MetricId) :
    (openHandle address provider metric).closing? = none := rfl
@[simp] theorem closing?_addRef (n : Nat) : (addRef n).closing? = none := rfl
@[simp] theorem closing?_release (n : Nat) : (release n).closing? = none := rfl
@[simp] theorem closing?_dropEndpoint (n : Nat) : (dropEndpoint n).closing? = some n := rfl
@[simp] theorem closing?_countClosed (n : Nat) : (countClosed n).closing? = some n := rfl
@[simp] theorem closing?_finished (result : Except Failure Unit) :
    (finished result).closing? = none := rfl

/-- What the next step of a call does to references. -/
def event? (c : Client) : ReferenceCall → Option ReferenceEvent
  | addRef n => (c.addRef n).toOption.map fun _ => .took n
  | release n => (c.dropRef n).toOption.map fun _ => .dropped n
  | dropEndpoint n => some (.letGo n)
  | countClosed n => some (.counted n)
  | _ => none

/-- What a step of a call can do to a client, how far the call is then, and what that did to
references. -/
inductive Does (c : Client) :
    ReferenceCall → Client → ReferenceCall → Option ReferenceEvent → Prop where
  | refused {call : ReferenceCall} (failure : Failure) (hcall : call.closing? = none) :
    Does c call c (finished (.error failure)) none
  | idle (result : Except Failure Unit) : Does c (finished result) c (finished result) none
  | opened {address : String} {provider : UInt16} {metric : MetricId} {c' : Client} {x : Handle}
      (hrefs : x.refs = 1) (hendpoint : x.endpoint?.isSome = true)
      (hhandles : c'.handles = c.handles.push x) (hopen : c'.openHandles = c.openHandles + 1) :
    Does c (openHandle address provider metric) c' (finished (.ok ())) none
  | took {n : Nat} {x : Handle} (hx : c.handles[n]? = some x) (hrefs : 0 < x.refs) :
    Does c (addRef n) (c.setHandle n { x with refs := x.refs + 1 }) (finished (.ok ()))
      (some (.took n))
  | dropped {n : Nat} {x : Handle} {k : Nat} (hx : c.handles[n]? = some x) (hrefs : x.refs = k + 2) :
    Does c (release n) (c.setHandle n { x with refs := k + 1 }) (finished (.ok ()))
      (some (.dropped n))
  | droppedLast {n : Nat} {x : Handle} (hx : c.handles[n]? = some x) (hrefs : x.refs = 1) :
    Does c (release n) (c.setHandle n { x with refs := 0 }) (dropEndpoint n) (some (.dropped n))
  | letGo (n : Nat) :
    Does c (dropEndpoint n) (c.dropEndpoint n) (countClosed n) (some (.letGo n))
  | counted (n : Nat) :
    Does c (countClosed n) c.countClosed (finished (.ok ())) (some (.counted n))

theorem does_openHandle (c : Client) (address : String) (provider : UInt16) (metric : MetricId) :
    Does c (openHandle address provider metric) ((openHandle address provider metric).step c).1
      ((openHandle address provider metric).step c).2 none := by
  by_cases haddress : address = ""
  · simp only [step, Client.openHandle, if_pos haddress]
    exact .refused _ rfl
  · obtain ⟨endpoints, known, heq⟩ := c.eq_of_endpointFor address
    simp only [step, Client.openHandle, if_neg haddress, heq]
    exact .opened rfl rfl rfl rfl

theorem does_addRef (c : Client) (n : Nat) :
    Does c (addRef n) ((addRef n).step c).1 ((addRef n).step c).2 ((addRef n).event? c) := by
  cases hx : c.handles[n]? with
  | none =>
    simp only [step, event?, Client.addRef, hx]
    exact .refused _ rfl
  | some x =>
    by_cases hrefs : x.refs = 0
    · simp only [step, event?, Client.addRef, hx, if_pos hrefs]
      exact .refused _ rfl
    · simp only [step, event?, Client.addRef, hx, if_neg hrefs]
      exact .took hx (Nat.pos_of_ne_zero hrefs)

theorem does_release (c : Client) (n : Nat) :
    Does c (release n) ((release n).step c).1 ((release n).step c).2 ((release n).event? c) := by
  cases hx : c.handles[n]? with
  | none =>
    simp only [step, event?, Client.dropRef, hx]
    exact .refused _ rfl
  | some x =>
    cases hrefs : x.refs with
    | zero =>
      simp only [step, event?, Client.dropRef, hx, hrefs]
      exact .refused _ rfl
    | succ k =>
      cases k with
      | zero =>
        simp only [step, event?, Client.dropRef, hx, hrefs]
        exact .droppedLast hx hrefs
      | succ k =>
        simp only [step, event?, Client.dropRef, hx, hrefs]
        exact .dropped hx hrefs

theorem does_step (c : Client) (call : ReferenceCall) :
    Does c call (call.step c).1 (call.step c).2 (call.event? c) := by
  cases call with
  | openHandle address provider metric => exact does_openHandle c address provider metric
  | addRef n => exact does_addRef c n
  | release n => exact does_release c n
  | dropEndpoint n => exact .letGo n
  | countClosed n => exact .counted n
  | finished result => exact .idle result

end ReferenceCall

namespace Client

open ReferenceCall (Does)

/-! ## The events of a schedule -/

/-- Something that was done to references, with the number of the call that did it. -/
abbrev Event := Nat × ReferenceEvent

/-- What the call does whose turn it is. -/
def noted (s : Interleaving Client ReferenceCall) (i : Nat) : List Event :=
  ((s.calls[i]?.bind fun call => call.event? s.state).map (Prod.mk i)).toList

/-- What the calls do to references in the turns of a schedule. -/
def events (c : Client) (calls : List ReferenceCall) (schedule : List Nat) : List Event :=
  Interleaving.log ReferenceCall.step noted ⟨c, calls⟩ schedule

/-- The number of references that were taken to a handle. -/
def takes (n : Nat) (events : List Event) : Nat := events.countP fun e => e.2 = .took n

/-- The number of references to a handle that were dropped. -/
def drops (n : Nat) (events : List Event) : Nat := events.countP fun e => e.2 = .dropped n

/-- What was done to close a handle. -/
def closings (n : Nat) (events : List Event) : List Event :=
  events.filter fun e => e.2 = .letGo n ∨ e.2 = .counted n

variable {c c' : Client} {call call' : ReferenceCall} {calls : List ReferenceCall}
  {past more : List Event} {who : Option Nat} {i n : Nat} {x : Handle}
  {s : Interleaving Client ReferenceCall}

theorem noted_of_getElem? (h : s.calls[i]? = some call) :
    noted s i = ((call.event? s.state).map (Prod.mk i)).toList := by
  rw [noted, h, Option.bind_some]

theorem takes_append (n : Nat) (past more : List Event) :
    takes n (past ++ more) = takes n past + takes n more := List.countP_append

theorem drops_append (n : Nat) (past more : List Event) :
    drops n (past ++ more) = drops n past + drops n more := List.countP_append

theorem closings_append (n : Nat) (past more : List Event) :
    closings n (past ++ more) = closings n past ++ closings n more := List.filter_append past more

/-- What was done to other handles does not count. -/
theorem eq_zero_of_elsewhere (h : ∀ e ∈ more, e.2.handle ≠ n) :
    takes n more = 0 ∧ drops n more = 0 ∧ closings n more = [] := by
  refine ⟨?_, ?_, ?_⟩
  · rw [takes, List.countP_eq_zero]
    rintro ⟨i, e⟩ he heq
    exact h _ he (by simp_all)
  · rw [drops, List.countP_eq_zero]
    rintro ⟨i, e⟩ he heq
    exact h _ he (by simp_all)
  · rw [closings, List.filter_eq_nil_iff]
    rintro ⟨i, e⟩ he heq
    exact h _ he (by cases e <;> simp_all)

/-! ## Handles on their way -/

theorem countP_closing_eq_zero (h : ∀ call ∈ calls, call.closing? = none) :
    calls.countP (fun call => call.closing?.isSome) = 0 := by
  rw [List.countP_eq_zero]
  intro call hcall
  simp [h call hcall]

/-- No call but that of one number, if any, is in the middle of closing a handle. -/
def ClosedBy (calls : List ReferenceCall) (n : Nat) (who : Option Nat) : Prop :=
  ∀ (i : Nat) (call : ReferenceCall), calls[i]? = some call → call.closing? = some n → who = some i

theorem ClosedBy.set (h : ClosedBy calls n who) (hi : call'.closing? = some n → who = some i) :
    ClosedBy (calls.set i call') n who := by
  intro j x hx hclosing
  rcases Interleaving.of_getElem?_set hx with ⟨rfl, rfl⟩ | ⟨-, hx⟩
  · exact hi hclosing
  · exact h j x hx hclosing

/-- The call that was in the middle of closing a handle is so no longer. -/
theorem ClosedBy.finish (h : ClosedBy calls n (some i)) (hi : call'.closing? ≠ some n) :
    ClosedBy (calls.set i call') n none := by
  intro j x hx hclosing
  rcases Interleaving.of_getElem?_set hx with ⟨rfl, rfl⟩ | ⟨hij, hx⟩
  · exact absurd hclosing hi
  · exact absurd (Option.some.inj (h j x hx hclosing)) hij

theorem ClosedBy.mono (h : ClosedBy calls n none) (who : Option Nat) : ClosedBy calls n who :=
  fun i call hi hclosing => absurd (h i call hi hclosing) (by simp)

/-- Where a handle is on its way from being opened to being closed, after what happened. -/
inductive Phase (calls : List ReferenceCall) (past : List Event) (n : Nat) (x : Handle) : Prop where
  | inUse (hrefs : 0 < x.refs) (hendpoint : x.endpoint?.isSome = true)
      (hcalls : ClosedBy calls n none) (hpast : closings n past = [])
  /-- A call dropped the last reference. -/
  | last (i : Nat) (hrefs : x.refs = 0) (hendpoint : x.endpoint?.isSome = true)
      (hi : calls[i]? = some (.dropEndpoint n)) (hcalls : ClosedBy calls n (some i))
      (hdropped : (i, .dropped n) ∈ past) (hpast : closings n past = [])
  /-- The same call let go of the endpoint. -/
  | letGo (i : Nat) (hrefs : x.refs = 0) (hendpoint : x.endpoint? = none)
      (hi : calls[i]? = some (.countClosed n)) (hcalls : ClosedBy calls n (some i))
      (hdropped : (i, .dropped n) ∈ past) (hpast : closings n past = [(i, .letGo n)])
  /-- And then it counted one open handle less. -/
  | closed (i : Nat) (hrefs : x.refs = 0) (hendpoint : x.endpoint? = none)
      (hcalls : ClosedBy calls n none) (hdropped : (i, .dropped n) ∈ past)
      (hpast : closings n past = [(i, .letGo n), (i, .counted n)])

/-- A turn of a call that is not in the middle of closing a handle leaves it where it is. -/
theorem Phase.elsewhere (h : Phase calls past n x) (hi : calls[i]? = some call)
    (hcall : call.closing? ≠ some n) (hcall' : call'.closing? ≠ some n)
    (hmore : closings n more = []) : Phase (calls.set i call') (past ++ more) n x := by
  have hpast : closings n (past ++ more) = closings n past := by
    rw [closings_append, hmore, List.append_nil]
  have hkeep : ∀ (j : Nat) (x : ReferenceCall), calls[j]? = some x → x.closing? = some n →
      (calls.set i call')[j]? = some x := by
    intro j x hx hclosing
    rw [List.getElem?_set_ne]
    · exact hx
    · rintro rfl
      rw [hi] at hx
      cases hx
      exact hcall hclosing
  have hset : ∀ {who}, ClosedBy calls n who → ClosedBy (calls.set i call') n who :=
    fun hwho => hwho.set fun hclosing => absurd hclosing hcall'
  cases h with
  | inUse hrefs hendpoint hcalls hnone =>
    exact .inUse hrefs hendpoint (hset hcalls) (hpast.trans hnone)
  | last j hrefs hendpoint hj hcalls hdropped hnone =>
    exact .last j hrefs hendpoint (hkeep j _ hj rfl) (hset hcalls) (List.mem_append_left _ hdropped)
      (hpast.trans hnone)
  | letGo j hrefs hendpoint hj hcalls hdropped hone =>
    exact .letGo j hrefs hendpoint (hkeep j _ hj rfl) (hset hcalls) (List.mem_append_left _ hdropped)
      (hpast.trans hone)
  | closed j hrefs hendpoint hcalls hdropped hboth =>
    exact .closed j hrefs hendpoint (hset hcalls) (List.mem_append_left _ hdropped)
      (hpast.trans hboth)

theorem Phase.of_pos (h : Phase calls past n x) (hx : 0 < x.refs) :
    x.endpoint?.isSome = true ∧ ClosedBy calls n none ∧ closings n past = [] := by
  cases h with
  | inUse hrefs hend hcalls hpast => exact ⟨hend, hcalls, hpast⟩
  | last i hrefs => omega
  | letGo i hrefs => omega
  | closed i hrefs => omega

/-- A handle that has references goes on to have some. -/
theorem Phase.inUse_of_pos (h : Phase calls past n x) (hx : 0 < x.refs) {y : Handle}
    (hy : 0 < y.refs) (hendpoint : y.endpoint? = x.endpoint?) : Phase calls past n y := by
  obtain ⟨hend, hcalls, hpast⟩ := h.of_pos hx
  exact .inUse hy (hendpoint ▸ hend) hcalls hpast

/-- A call that is to let go of the endpoint has dropped the last reference. -/
theorem Phase.of_dropEndpoint (h : Phase calls past n x) (hi : calls[i]? = some (.dropEndpoint n)) :
    x.refs = 0 ∧ ClosedBy calls n (some i) ∧ (i, .dropped n) ∈ past ∧ closings n past = [] := by
  cases h with
  | inUse hrefs hend hcalls => exact absurd (hcalls i _ hi rfl) (by simp)
  | last j hrefs hend hj hcalls hdropped hpast =>
    obtain rfl : j = i := Option.some.inj (hcalls i _ hi rfl)
    exact ⟨hrefs, hcalls, hdropped, hpast⟩
  | letGo j hrefs hend hj hcalls =>
    obtain rfl : j = i := Option.some.inj (hcalls i _ hi rfl)
    rw [hj] at hi
    cases hi
  | closed j hrefs hend hcalls => exact absurd (hcalls i _ hi rfl) (by simp)

/-- A call that is to count one open handle less has let go of the endpoint. -/
theorem Phase.of_countClosed (h : Phase calls past n x) (hi : calls[i]? = some (.countClosed n)) :
    x.refs = 0 ∧ x.endpoint? = none ∧ ClosedBy calls n (some i) ∧ (i, .dropped n) ∈ past ∧
      closings n past = [(i, .letGo n)] := by
  cases h with
  | inUse hrefs hend hcalls => exact absurd (hcalls i _ hi rfl) (by simp)
  | last j hrefs hend hj hcalls =>
    obtain rfl : j = i := Option.some.inj (hcalls i _ hi rfl)
    rw [hj] at hi
    cases hi
  | letGo j hrefs hend hj hcalls hdropped hpast =>
    obtain rfl : j = i := Option.some.inj (hcalls i _ hi rfl)
    exact ⟨hrefs, hend, hcalls, hdropped, hpast⟩
  | closed j hrefs hend hcalls => exact absurd (hcalls i _ hi rfl) (by simp)

/-! ## The invariant -/

/-- Every handle is somewhere on its way, and the counters agree with what happened. -/
structure InProgress (past : List Event) (s : Interleaving Client ReferenceCall) : Prop where
  /-- Nothing was done to handles that were not opened. -/
  past_lt : ∀ e ∈ past, e.2.handle < s.state.handles.size
  closing_lt : ∀ (i : Nat) (call : ReferenceCall) (n : Nat), s.calls[i]? = some call →
    call.closing? = some n → n < s.state.handles.size
  phase : ∀ (n : Nat) (x : Handle), s.state.handles[n]? = some x → Phase s.calls past n x
  refs : ∀ (n : Nat) (x : Handle), s.state.handles[n]? = some x →
    x.refs + drops n past = 1 + takes n past
  openHandles : s.state.openHandles
    = s.state.inUse + s.calls.countP fun call => call.closing?.isSome

theorem inProgress_start (hhandles : c.handles = #[]) (hopen : c.openHandles = 0)
    (hcalls : ∀ call ∈ calls, call.closing? = none) : InProgress [] ⟨c, calls⟩ where
  past_lt e he := by cases he
  closing_lt i call n hi hclosing := by
    rw [hcalls call (List.mem_of_getElem? hi)] at hclosing
    cases hclosing
  phase n x hx := by simp [hhandles] at hx
  refs n x hx := by simp [hhandles] at hx
  openHandles := by
    simp [hopen, inUse, hhandles, countP_closing_eq_zero hcalls]

/-- A turn that changes nothing, of a call that is not in the middle of closing a handle. -/
theorem InProgress.pass (h : InProgress past s) (hi : s.calls[i]? = some call)
    (hcall : call.closing? = none) (hcall' : call'.closing? = none) :
    InProgress past ⟨s.state, s.calls.set i call'⟩ := by
  constructor
  case past_lt => exact h.past_lt
  case closing_lt =>
    intro j x n hx hclosing
    rcases Interleaving.of_getElem?_set hx with ⟨rfl, rfl⟩ | ⟨-, hx⟩
    · rw [hcall'] at hclosing
      cases hclosing
    · exact h.closing_lt j x n hx hclosing
  case phase =>
    intro n x hx
    have hphase : Phase (s.calls.set i call') (past ++ []) n x :=
      (h.phase n x hx).elsewhere hi (by simp [hcall]) (by simp [hcall']) rfl
    rwa [List.append_nil] at hphase
  case refs => exact h.refs
  case openHandles =>
    have hcount := Interleaving.countP_set (fun call => call.closing?.isSome) hi call'
    simp only [hcall, hcall', Option.isSome_none, Bool.false_eq_true, if_false,
      Nat.add_zero] at hcount
    rw [hcount]
    exact h.openHandles

/-- A turn in which something happens to one handle. -/
theorem InProgress.turn (h : InProgress past s) (hi : s.calls[i]? = some call)
    (hsize : s.state.handles.size ≤ c'.handles.size) (hn : n < c'.handles.size)
    (hother : ∀ m, m ≠ n → c'.handles[m]? = s.state.handles[m]?)
    (hcall : ∀ m, call.closing? = some m → m = n) (hcall' : ∀ m, call'.closing? = some m → m = n)
    (hmore : ∀ e ∈ more, e.2.handle = n)
    (hself : ∀ x, c'.handles[n]? = some x → Phase (s.calls.set i call') (past ++ more) n x ∧
      x.refs + drops n (past ++ more) = 1 + takes n (past ++ more))
    (hopen : c'.openHandles + s.state.inUse + (if call.closing?.isSome then 1 else 0)
      = s.state.openHandles + c'.inUse + if call'.closing?.isSome then 1 else 0) :
    InProgress (past ++ more) ⟨c', s.calls.set i call'⟩ := by
  have helsewhere : ∀ m, m ≠ n → ∀ e ∈ more, e.2.handle ≠ m := by
    intro m hm e he heq
    exact hm (heq.symm.trans (hmore e he))
  constructor
  case past_lt =>
    intro e he
    rcases List.mem_append.mp he with he | he
    · exact Nat.lt_of_lt_of_le (h.past_lt e he) hsize
    · rw [hmore e he]
      exact hn
  case closing_lt =>
    intro j x m hx hclosing
    rcases Interleaving.of_getElem?_set hx with ⟨rfl, rfl⟩ | ⟨-, hx⟩
    · rw [hcall' m hclosing]
      exact hn
    · exact Nat.lt_of_lt_of_le (h.closing_lt j x m hx hclosing) hsize
  case phase =>
    intro m x hx
    by_cases hm : m = n
    · subst hm
      exact (hself x hx).1
    · rw [hother m hm] at hx
      have hnone := (eq_zero_of_elsewhere (helsewhere m hm)).2.2
      exact (h.phase m x hx).elsewhere hi (mt (hcall m) hm) (mt (hcall' m) hm) hnone
  case refs =>
    intro m x hx
    by_cases hm : m = n
    · subst hm
      exact (hself x hx).2
    · rw [hother m hm] at hx
      obtain ⟨htakes, hdrops, -⟩ := eq_zero_of_elsewhere (helsewhere m hm)
      rw [drops_append, takes_append, htakes, hdrops]
      exact h.refs m x hx
  case openHandles =>
    have hcount := Interleaving.countP_set (fun call => call.closing?.isSome) hi call'
    have hbefore := h.openHandles
    change c'.openHandles = c'.inUse + (s.calls.set i call').countP fun call => call.closing?.isSome
    omega

/-- A turn in which a handle is changed. -/
theorem InProgress.set (h : InProgress past s) (hi : s.calls[i]? = some call)
    (hx : s.state.handles[n]? = some x) {y : Handle}
    (hcall : ∀ m, call.closing? = some m → m = n) (hcall' : ∀ m, call'.closing? = some m → m = n)
    (hmore : ∀ e ∈ more, e.2.handle = n) (hphase : Phase (s.calls.set i call') (past ++ more) n y)
    (hrefs : y.refs + drops n more = x.refs + takes n more)
    (hopen : (if 0 < x.refs then 1 else 0) + (if call.closing?.isSome then 1 else 0)
      = (if 0 < y.refs then 1 else 0) + if call'.closing?.isSome then 1 else 0) :
    InProgress (past ++ more) ⟨s.state.setHandle n y, s.calls.set i call'⟩ := by
  have hn : n < s.state.handles.size := (Array.getElem?_eq_some_iff.mp hx).1
  have hsize := size_setHandle s.state n y
  have hother : ∀ m, m ≠ n → (s.state.setHandle n y).handles[m]? = s.state.handles[m]? :=
    fun m hm => getElem?_setHandle_of_ne s.state (Ne.symm hm) y
  refine h.turn hi hsize.ge (hsize ▸ hn) hother hcall hcall' hmore (fun z hz => ?_) ?_
  · rw [getElem?_setHandle_self hx] at hz
    cases hz
    have hbefore := h.refs n x hx
    refine ⟨hphase, ?_⟩
    rw [drops_append, takes_append]
    omega
  · have hinUse := inUse_setHandle hx y
    change s.state.openHandles + s.state.inUse + _ = _
    omega

theorem InProgress.opened {address : String} {provider : UInt16} {metric : MetricId}
    (h : InProgress past s) (hi : s.calls[i]? = some (.openHandle address provider metric))
    (hrefs : x.refs = 1) (hendpoint : x.endpoint?.isSome = true)
    (hhandles : c'.handles = s.state.handles.push x)
    (hopen : c'.openHandles = s.state.openHandles + 1) :
    InProgress past ⟨c', s.calls.set i (.finished (.ok ()))⟩ := by
  have hsize : c'.handles.size = s.state.handles.size + 1 := by rw [hhandles, Array.size_push]
  have hother : ∀ m, m ≠ s.state.handles.size → c'.handles[m]? = s.state.handles[m]? := by
    intro m hm
    rw [hhandles, Array.getElem?_push, if_neg hm]
  have hcalls : ClosedBy s.calls s.state.handles.size none := fun j call hj hclosing =>
    absurd (h.closing_lt j call _ hj hclosing) (Nat.lt_irrefl _)
  obtain ⟨htakes, hdrops, hpast⟩ := eq_zero_of_elsewhere fun e he => (h.past_lt e he).ne
  rw [← List.append_nil past]
  refine h.turn (n := s.state.handles.size) hi (by omega) (by omega) hother
    (by simp) (by simp) (by simp) (fun y hy => ?_) ?_
  · rw [hhandles, Array.getElem?_push_size] at hy
    cases hy
    rw [List.append_nil]
    refine ⟨.inUse (by omega) hendpoint (hcalls.set (by simp)) hpast, ?_⟩
    rw [hrefs, htakes, hdrops]
  · simp [hopen, inUse_push hhandles, hrefs]
    omega

/-- A reference to a handle is taken or dropped, and there are some before and afterwards. -/
theorem InProgress.recounted {event : ReferenceEvent} {refs : Nat} (h : InProgress past s)
    (hi : s.calls[i]? = some call) (hcall : call.closing? = none)
    (hx : s.state.handles[n]? = some x) (hrefs : 0 < x.refs) (hpos : 0 < refs)
    (hevent : event = .took n ∧ refs = x.refs + 1 ∨ event = .dropped n ∧ x.refs = refs + 1) :
    InProgress (past ++ [(i, event)])
      ⟨s.state.setHandle n { x with refs := refs }, s.calls.set i (.finished (.ok ()))⟩ := by
  have hclosings : closings n [(i, event)] = [] := by
    rcases hevent with ⟨rfl, -⟩ | ⟨rfl, -⟩ <;> simp [closings]
  have hphase : Phase (s.calls.set i (.finished (.ok ()))) (past ++ [(i, event)]) n x :=
    (h.phase n x hx).elsewhere hi (by simp [hcall]) (by simp) hclosings
  refine h.set hi hx (by simp [hcall]) (by simp) ?_ (hphase.inUse_of_pos hrefs hpos rfl) ?_ ?_
  · rcases hevent with ⟨rfl, -⟩ | ⟨rfl, -⟩ <;> simp
  · rcases hevent with ⟨rfl, heq⟩ | ⟨rfl, heq⟩
    · simp [takes, drops, heq]
    · simp [takes, drops, heq]
  · simp [hrefs, hpos, hcall]

theorem InProgress.droppedLast (h : InProgress past s) (hi : s.calls[i]? = some (.release n))
    (hx : s.state.handles[n]? = some x) (hrefs : x.refs = 1) :
    InProgress (past ++ [(i, .dropped n)])
      ⟨s.state.setHandle n { x with refs := 0 }, s.calls.set i (.dropEndpoint n)⟩ := by
  have hlt : i < s.calls.length := (List.getElem?_eq_some_iff.mp hi).1
  obtain ⟨hendpoint, hcalls, hpast⟩ := (h.phase n x hx).of_pos (by omega)
  have hphase : Phase (s.calls.set i (.dropEndpoint n)) (past ++ [(i, .dropped n)]) n
      { x with refs := 0 } := by
    refine .last i rfl hendpoint (List.getElem?_set_self hlt)
      ((hcalls.mono (some i)).set fun _ => rfl) (by simp) ?_
    rw [closings_append, hpast]
    simp [closings]
  refine h.set hi hx (by simp) (by simp [eq_comm]) (by simp) hphase ?_ ?_
  · simp [takes, drops, hrefs]
  · simp [hrefs]

theorem InProgress.letGo (h : InProgress past s) (hi : s.calls[i]? = some (.dropEndpoint n)) :
    InProgress (past ++ [(i, .letGo n)])
      ⟨s.state.dropEndpoint n, s.calls.set i (.countClosed n)⟩ := by
  have hlt : i < s.calls.length := (List.getElem?_eq_some_iff.mp hi).1
  obtain ⟨x, hx⟩ : ∃ x, s.state.handles[n]? = some x :=
    ⟨_, Array.getElem?_eq_getElem (h.closing_lt i _ n hi rfl)⟩
  obtain ⟨hrefs, hcalls, hdropped, hpast⟩ := (h.phase n x hx).of_dropEndpoint hi
  have hphase : Phase (s.calls.set i (.countClosed n)) (past ++ [(i, .letGo n)]) n
      { x with endpoint? := none } := by
    refine .letGo i hrefs rfl (List.getElem?_set_self hlt) (hcalls.set fun _ => rfl)
      (List.mem_append_left _ hdropped) ?_
    rw [closings_append, hpast]
    simp [closings]
  rw [dropEndpoint, hx]
  refine h.set hi hx (by simp [eq_comm]) (by simp [eq_comm]) (by simp) hphase ?_ ?_
  · simp [takes, drops]
  · simp

/-- A handle that is not closed yet is counted as open, so the counter is not zero. -/
theorem InProgress.openHandles_pos (h : InProgress past s) (hi : s.calls[i]? = some call)
    (hcall : call.closing? = some n) : 0 < s.state.openHandles := by
  have hpos : 0 < s.calls.countP fun call => call.closing?.isSome := by
    rw [List.countP_pos_iff]
    exact ⟨call, List.mem_of_getElem? hi, by simp [hcall]⟩
  rw [h.openHandles]
  omega

theorem InProgress.counted (h : InProgress past s) (hi : s.calls[i]? = some (.countClosed n)) :
    InProgress (past ++ [(i, .counted n)])
      ⟨s.state.countClosed, s.calls.set i (.finished (.ok ()))⟩ := by
  have hopen := h.openHandles_pos hi rfl
  have hphase : ∀ x, s.state.handles[n]? = some x →
      Phase (s.calls.set i (.finished (.ok ()))) (past ++ [(i, .counted n)]) n x := by
    intro x hx
    obtain ⟨hrefs, hendpoint, hcalls, hdropped, hpast⟩ := (h.phase n x hx).of_countClosed hi
    refine .closed i hrefs hendpoint (hcalls.finish (by simp)) (List.mem_append_left _ hdropped) ?_
    rw [closings_append, hpast]
    simp [closings]
  refine h.turn hi (Nat.le_refl _) (h.closing_lt i _ n hi rfl) (fun m hm => rfl)
    (by simp [eq_comm]) (by simp) (by simp) (fun x hx => ⟨hphase x hx, ?_⟩) ?_
  · have hbefore := h.refs n x hx
    rw [drops_append, takes_append]
    simpa [takes, drops] using hbefore
  · change s.state.openHandles - 1 + s.state.inUse + 1 = s.state.openHandles + s.state.inUse + 0
    omega

/-- What every turn of a call preserves. -/
theorem InProgress.advance (h : InProgress past s) (i : Nat) :
    InProgress (past ++ noted s i) (s.advance ReferenceCall.step i) := by
  cases hi : s.calls[i]? with
  | none =>
    have hnone : noted s i = [] := by rw [noted, hi]; rfl
    rw [hnone, List.append_nil, Interleaving.advance_of_none hi]
    exact h
  | some call =>
    rw [noted_of_getElem? hi, Interleaving.advance_of_some hi]
    have hdoes := ReferenceCall.does_step s.state call
    generalize (call.step s.state).1 = c', (call.step s.state).2 = call', call.event? s.state = event?
      at hdoes
    cases hdoes with
    | refused failure hcall =>
      rw [Option.map_none, Option.toList_none, List.append_nil]
      exact h.pass hi hcall rfl
    | idle result =>
      rw [Option.map_none, Option.toList_none, List.append_nil]
      exact h.pass hi rfl rfl
    | opened hrefs hendpoint hhandles hopen =>
      rw [Option.map_none, Option.toList_none, List.append_nil]
      exact h.opened hi hrefs hendpoint hhandles hopen
    | took hx hrefs => exact h.recounted hi rfl hx hrefs (Nat.succ_pos _) (.inl ⟨rfl, rfl⟩)
    | dropped hx hrefs =>
      exact h.recounted hi rfl hx (by omega) (Nat.succ_pos _) (.inr ⟨rfl, hrefs⟩)
    | droppedLast hx hrefs => exact h.droppedLast hi hx hrefs
    | letGo n => exact h.letGo hi
    | counted n => exact h.counted hi

theorem inProgress_interleave (hhandles : c.handles = #[]) (hopen : c.openHandles = 0)
    (hcalls : ∀ call ∈ calls, call.closing? = none) (schedule : List Nat) :
    InProgress (c.events calls schedule) (c.interleave calls schedule) :=
  Interleaving.log_induction schedule (inProgress_start hhandles hopen hcalls) fun _ _ i h =>
    h.advance i

/-! ## Handles without references -/

/-- No step gives references to a handle that has none. -/
theorem refs_step (c : Client) (call : ReferenceCall) (hx : c.handles[n]? = some x)
    (hrefs : x.refs = 0) : ∃ y, (call.step c).1.handles[n]? = some y ∧ y.refs = 0 := by
  have hset : ∀ m z y, c.handles[m]? = some z → (0 < z.refs ∨ y.refs = z.refs) →
      ∃ y', (c.setHandle m y).handles[n]? = some y' ∧ y'.refs = 0 := by
    intro m z y hz hy
    by_cases hm : m = n
    · subst hm
      obtain rfl : x = z := Option.some.inj (hx.symm.trans hz)
      exact ⟨y, getElem?_setHandle_self hx y, by omega⟩
    · exact ⟨x, (getElem?_setHandle_of_ne c hm y).trans hx, hrefs⟩
  have hdoes := ReferenceCall.does_step c call
  generalize (call.step c).1 = c', (call.step c).2 = call', call.event? c = event? at hdoes
  cases hdoes with
  | refused => exact ⟨x, hx, hrefs⟩
  | idle => exact ⟨x, hx, hrefs⟩
  | opened _ _ hhandles =>
    have hn := (Array.getElem?_eq_some_iff.mp hx).1
    refine ⟨x, ?_, hrefs⟩
    rw [hhandles, Array.getElem?_push_lt hn, ← hx, Array.getElem?_eq_getElem hn]
  | took hz hpos => exact hset _ _ _ hz (.inl hpos)
  | dropped hz hpos => exact hset _ _ _ hz (.inl (by omega))
  | droppedLast hz hpos => exact hset _ _ _ hz (.inl (by omega))
  | letGo m =>
    rw [dropEndpoint]
    cases hz : c.handles[m]? with
    | none => exact ⟨x, hx, hrefs⟩
    | some z => exact hset m z _ hz (.inr rfl)
  | counted => exact ⟨x, hx, hrefs⟩

theorem refs_run (hx : s.state.handles[n]? = some x) (hrefs : x.refs = 0) (schedule : List Nat) :
    ∃ y, (s.run ReferenceCall.step schedule).state.handles[n]? = some y ∧ y.refs = 0 := by
  let P (s : Interleaving Client ReferenceCall) : Prop :=
    ∃ y : Handle, s.state.handles[n]? = some y ∧ y.refs = 0
  refine Interleaving.run_induction (P := P) schedule ⟨x, hx, hrefs⟩ ?_
  rintro s i ⟨y, hy, hzero⟩
  cases hi : s.calls[i]? with
  | none =>
    rw [Interleaving.advance_of_none hi]
    exact ⟨y, hy, hzero⟩
  | some call =>
    rw [Interleaving.advance_of_some hi]
    exact refs_step s.state call hy hzero

/-- A call that wants a reference, or wants to drop one, is told that there are none. -/
theorem step_of_refs (hx : c.handles[n]? = some x) (hrefs : x.refs = 0)
    (hcall : call = .addRef n ∨ call = .release n) :
    ∃ failure, call.step c = (c, .finished (.error failure)) := by
  rcases hcall with rfl | rfl
  · refine ⟨closedHandle x, ?_⟩
    simp only [ReferenceCall.step, addRef, hx, if_pos hrefs]
  · refine ⟨.invalidArgs ("handle for " ++ x.metric.hex ++ " released too often"), ?_⟩
    simp only [ReferenceCall.step, dropRef, hx, hrefs]

/-! ## What holds of all handles -/

/-- What holds of the references of all handles after some events. -/
structure Balanced (past : List Event) (s : Interleaving Client ReferenceCall) : Prop where
  /-- A handle has the reference with which it was opened and those that were taken, but for those
  that were dropped. -/
  refs : ∀ (n : Nat) (x : Handle), s.state.handles[n]? = some x →
    x.refs + drops n past = 1 + takes n past
  /-- A handle without references never has any again. -/
  stays : ∀ (n : Nat) (x : Handle), s.state.handles[n]? = some x → x.refs = 0 → ∀ schedule,
    ∃ y : Handle, (s.run ReferenceCall.step schedule).state.handles[n]? = some y ∧ y.refs = 0
  /-- To take or drop a reference fails then, and changes nothing. -/
  refused : ∀ (n : Nat) (x : Handle) (i : Nat) (call : ReferenceCall),
    s.state.handles[n]? = some x → x.refs = 0 → s.calls[i]? = some call →
    call = .addRef n ∨ call = .release n →
    ∃ failure, s.advance ReferenceCall.step i
      = ⟨s.state, s.calls.set i (.finished (.error failure))⟩
  /-- Nobody closes a handle that has references. Otherwise it is one of the calls that dropped some,
  which lets go of the endpoint once and counts once. -/
  once : ∀ (n : Nat) (x : Handle), s.state.handles[n]? = some x →
    if 0 < x.refs then closings n past = []
    else ∃ i, (i, .dropped n) ∈ past ∧ closings n past <+: [(i, .letGo n), (i, .counted n)]
  /-- The counter is not zero when it is to count one open handle less. -/
  counted : ∀ (n i : Nat), s.calls[i]? = some (.countClosed n) →
    (s.advance ReferenceCall.step i).state.openHandles + 1 = s.state.openHandles
  /-- While no call is in the middle of closing a handle, those with references have an endpoint, the
  others were closed, and the counter tells how many have references. -/
  settled : (∀ call ∈ s.calls, call.closing? = none) →
    s.state.openHandles = s.state.inUse ∧
      ∀ (n : Nat) (x : Handle), s.state.handles[n]? = some x →
        (x.endpoint?.isSome = true ↔ 0 < x.refs) ∧
        (x.refs = 0 → ∃ i, (i, .dropped n) ∈ past ∧
          closings n past = [(i, .letGo n), (i, .counted n)])

theorem InProgress.balanced (h : InProgress past s) : Balanced past s := by
  constructor
  case refs => exact h.refs
  case stays =>
    intro n x hx hrefs schedule
    exact refs_run hx hrefs schedule
  case refused =>
    intro n x i call hx hrefs hi hcall
    obtain ⟨failure, hstep⟩ := step_of_refs hx hrefs hcall
    exact ⟨failure, by rw [Interleaving.advance_of_some hi, hstep]⟩
  case once =>
    intro n x hx
    cases h.phase n x hx with
    | inUse hrefs hendpoint hcalls hpast => rwa [if_pos hrefs]
    | last i hrefs hendpoint hi hcalls hdropped hpast =>
      rw [if_neg (by omega)]
      exact ⟨i, hdropped, hpast ▸ List.nil_prefix⟩
    | letGo i hrefs hendpoint hi hcalls hdropped hpast =>
      rw [if_neg (by omega)]
      refine ⟨i, hdropped, ?_⟩
      rw [hpast]
      exact List.prefix_append [(i, ReferenceEvent.letGo n)] [(i, ReferenceEvent.counted n)]
    | closed i hrefs hendpoint hcalls hdropped hpast =>
      rw [if_neg (by omega)]
      exact ⟨i, hdropped, hpast ▸ List.prefix_refl _⟩
  case counted =>
    intro n i hi
    have hopen := h.openHandles_pos hi rfl
    rw [Interleaving.advance_of_some hi]
    exact Nat.sub_add_cancel hopen
  case settled =>
    intro hnone
    constructor
    · rw [h.openHandles, countP_closing_eq_zero hnone, Nat.add_zero]
    · intro n x hx
      have hidle : ∀ (i : Nat) (call : ReferenceCall), s.calls[i]? = some call →
          call.closing? ≠ some n := by
        intro i call hi
        simp [hnone call (List.mem_of_getElem? hi)]
      cases h.phase n x hx with
      | inUse hrefs hendpoint => exact ⟨iff_of_true hendpoint hrefs, fun hzero => by omega⟩
      | last i hrefs hendpoint hi => exact absurd rfl (hidle i _ hi)
      | letGo i hrefs hendpoint hi => exact absurd rfl (hidle i _ hi)
      | closed i hrefs hendpoint hcalls hdropped hpast =>
        exact ⟨iff_of_false (by simp [hendpoint]) (by omega), fun _ => ⟨i, hdropped, hpast⟩⟩

/-- Whoever has which turn, the references of the handles of a new client are in balance, and every
handle is closed once. -/
theorem balanced_interleave (hhandles : c.handles = #[]) (hopen : c.openHandles = 0)
    (hcalls : ∀ call ∈ calls, call.closing? = none) (schedule : List Nat) :
    Balanced (c.events calls schedule) (c.interleave calls schedule) :=
  (inProgress_interleave hhandles hopen hcalls schedule).balanced

/-- A handle to which a reference is taken while it is released. One of the two releases is the last
one, and the reference that is wanted after it is refused. -/
def contested : List ReferenceCall :=
  [.openHandle "10.0.0.1:1" 1 ⟨7⟩, .addRef 0, .release 0, .release 0, .addRef 0]

theorem balanced_interleave_contested :
    Balanced (events {} contested [0, 1, 3, 2, 4, 2, 2])
        (interleave {} contested [0, 1, 3, 2, 4, 2, 2]) ∧
      events {} contested [0, 1, 3, 2, 4, 2, 2] = [(1, .took 0), (3, .dropped 0), (2, .dropped 0),
        (2, .letGo 0), (2, .counted 0)] ∧
      (interleave {} contested [0, 1, 3, 2, 4, 2, 2]).state.openHandles = 0 := by
  refine ⟨balanced_interleave rfl rfl ?_ _, ?_⟩
  · decide
  · decide +kernel

end Client

end Telemetry
