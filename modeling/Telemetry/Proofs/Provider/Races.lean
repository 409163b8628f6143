import Telemetry.Proofs.Interleaving
import Telemetry.Proofs.Provider.Calls

/-!
# Races between calls

Creations and removals run side by side on one provider. Whatever the timing, no identity gets two
metrics, a creation fails for a reason, and no context is lost or handed back twice.

## Main definitions

* `Provider.serve`: the provider and the calls for some requests, after a schedule.
* `Provider.Reliable`: what callers can rely on.

## Main statements

* `Provider.InProgress.advance`: the invariant that every turn of a call preserves.
* `Provider.Reachable.reliable`: what callers can rely on holds for all requests and schedules.
-/
namespace Telemetry.Provider

open LifecycleRequest (Stage)

/-- A provider and the calls for some requests, after a schedule. -/
def serve (p : Provider) (requests : List LifecycleRequest) (schedule : List Nat) :
    Interleaving Provider LifecycleCall :=
  p.interleave (requests.map LifecycleRequest.call) schedule

/-- The next turn of a call ends it. -/
def EndsWith (s : Interleaving Provider LifecycleCall) (i : Nat) (result : LifecycleResult) : Prop :=
  ∃ call, s.calls[i]? = some call ∧ call.isFinished = false ∧
    (call.step s.state).2 = .finished result

/-- The next turn of a call, which is a removal, takes the metric of an identity out. -/
def TakesOut (s : Interleaving Provider LifecycleCall) (i : Nat) (id : MetricId) : Prop :=
  ∃ call, s.calls[i]? = some call ∧ call.Removes id ∧ s.state.registry.Live id ∧
    ¬ (call.step s.state).1.registry.Live id

/-- What the callers of a provider can rely on, whoever has which turn. -/
structure Reliable (p : Provider) (requests : List LifecycleRequest) (schedule : List Nat) : Prop where
  /-- No identity has two metrics. -/
  nodup : ((p.serve requests schedule).state.registry.metrics.map Metric.id).Nodup
  /-- Between two creations of an identity there is a removal. -/
  removed : ∀ before i between j after spec spec' m m',
    schedule = before ++ i :: between ++ j :: after →
    requests[i]? = some (.create spec) → requests[j]? = some (.create spec') → spec.id = spec'.id →
    EndsWith (p.serve requests before) i (.created m) →
    EndsWith (p.serve requests (before ++ i :: between)) j (.created m') →
    ∃ first k last, between = first ++ k :: last ∧
      TakesOut (p.serve requests (before ++ i :: first)) k spec.id
  /-- A creation that is told that its metric exists had a turn when there was one, if the backend
  that it asks for knows no metrics. -/
  exists_live : ∀ i spec detail, requests[i]? = some (.create spec) →
    (∀ b ∈ p.backendFor? spec, b.KnowsNoMetrics) →
    (p.serve requests schedule).calls[i]? = some (.finished (.failed (.metricExists detail))) →
    ∃ before after call, schedule = before ++ i :: after ∧
      (p.serve requests before).calls[i]? = some call ∧ call.isFinished = false ∧
      (p.serve requests before).state.registry.Live spec.id
  /-- Whatever backend it asks for, it had such a turn or the backend said so. -/
  live_or_refuses : ∀ i spec detail, requests[i]? = some (.create spec) →
    (p.serve requests schedule).calls[i]? = some (.finished (.failed (.metricExists detail))) →
    ∃ before after call, schedule = before ++ i :: after ∧
      (p.serve requests before).calls[i]? = some call ∧ call.isFinished = false ∧
      ((p.serve requests before).state.registry.Live spec.id ∨
        (p.serve requests before).state.Refuses spec (.metricExists detail))
  /-- No context was handed back twice. -/
  once : ((p.serve requests schedule).state.released.map BackendContext.ticket).Nodup
  /-- What was handed back went to the backend that had made it before, content or not. -/
  maker : ∀ newer how c failure? older,
    (p.serve requests schedule).state.ledger = newer ++ .released how c failure? :: older →
    ∃ between making oldest b, older = between ++ .made making c :: oldest ∧
      p.backends.find? c.owner = some b ∧
      b.make oldest making c.ticket c.provider c.config = .ok c ∧
      failure? = b.releaseFailure? older how c
  /-- When all calls have ended, every backend has all its contexts back but those of live metrics.
  -/
  settled : (∀ call ∈ (p.serve requests schedule).calls, call.isFinished = true) → ∀ owner,
    ((p.serve requests schedule).state.made.filter fun c => c.owner = owner).Perm
      (((p.serve requests schedule).state.released.filter fun c => c.owner = owner) ++
        ((p.serve requests schedule).state.attached.filter fun c => c.owner = owner))
  /-- What is handed back the call held whose turn it is, and the storage goes for a creation that
  created it and for a removal that asks for that, and stays otherwise. -/
  way : ∃ new, (p.serve requests schedule).state.ledger = new ++ p.ledger ∧
    ∀ how c failure?, .released how c failure? ∈ new → ∃ before i after request call,
      schedule = before ++ i :: after ∧ requests[i]? = some request ∧
      (p.serve requests before).calls[i]? = some call ∧ c ∈ call.held ∧
      (how = .destroy ↔ request.Destroys)

/-! ## The invariant -/

variable {p : Provider} {requests : List LifecycleRequest}
  {s : Interleaving Provider LifecycleCall} {i : Nat} {call : LifecycleCall}

/-- The contexts are accounted for, and every call is on its way. -/
structure InProgress (requests : List LifecycleRequest) (s : Interleaving Provider LifecycleCall) :
    Prop where
  accounts : s.state.Accounts (s.calls.flatMap LifecycleCall.held)
  stages : List.Forall₂ Stage requests s.calls

theorem InProgress.exists_stage (h : InProgress requests s) (hi : s.calls[i]? = some call) :
    ∃ request, requests[i]? = some request ∧ Stage request call :=
  Interleaving.exists_of_forall₂ h.stages hi

/-- Every turn of a call keeps the contexts accounted for. -/
theorem InProgress.advance (h : InProgress requests s) (i : Nat) :
    InProgress requests (s.advance LifecycleCall.step i) := by
  cases hi : s.calls[i]? with
  | none => rwa [Interleaving.advance_of_none hi]
  | some call =>
    obtain ⟨request, -, hstage⟩ := h.exists_stage hi
    rw [Interleaving.advance_of_some hi]
    constructor
    · have hp := h.accounts.perm (Interleaving.perm_flatMap_of_getElem? LifecycleCall.held hi)
      exact (hstage.accounts hp).perm (Interleaving.perm_flatMap_set LifecycleCall.held hi _).symm
    · exact Interleaving.forall₂_set h.stages hi fun request hr => hr.step s.state

theorem Reachable.inProgress (h : Reachable p) (requests : List LifecycleRequest)
    (schedule : List Nat) : InProgress requests (p.serve requests schedule) := by
  refine Interleaving.run_induction schedule ⟨?_, ?_⟩ fun s i hs => hs.advance i
  · have hheld : (requests.map LifecycleRequest.call).flatMap LifecycleCall.held = [] := by
      simp [List.flatMap_map, LifecycleRequest.held_call]
    rw [hheld]
    exact h.accounts
  · rw [List.forall₂_map_right_iff, List.forall₂_same]
    intro request _
    exact request.stage_call

theorem serve_append (p : Provider) (requests : List LifecycleRequest) (first second : List Nat) :
    p.serve requests (first ++ second)
      = (p.serve requests first).run LifecycleCall.step second :=
  Interleaving.run_append _ _ _ _

theorem serve_turn (p : Provider) (requests : List LifecycleRequest) (before : List Nat) (i : Nat)
    (after : List Nat) :
    p.serve requests (before ++ i :: after)
      = ((p.serve requests before).advance LifecycleCall.step i).run LifecycleCall.step after := by
  rw [serve_append, Interleaving.run_cons]

/-! ## Creations that succeed -/

variable {spec : MetricSpec} {m : Metric} {id : MetricId}

theorem InProgress.stage (h : InProgress requests s) {request : LifecycleRequest}
    (hrequest : requests[i]? = some request) (hi : s.calls[i]? = some call) :
    Stage request call := by
  obtain ⟨request', hrequest', hstage⟩ := h.exists_stage hi
  rw [hrequest] at hrequest'
  cases hrequest'
  exact hstage

/-- A creation that succeeds finds its identity free and takes it. -/
theorem InProgress.live_of_created (h : InProgress requests s)
    (hrequest : requests[i]? = some (.create spec)) (hend : EndsWith s i (.created m)) :
    ¬ s.state.registry.Live spec.id ∧
      (s.advance LifecycleCall.step i).state.registry.Live spec.id := by
  obtain ⟨call, hi, hcall, hstep⟩ := hend
  have hid : m.id = spec.id := by
    have hstage := (h.stage hrequest hi).step s.state
    rw [hstep] at hstage
    cases hstage
    assumption
  rw [Interleaving.advance_of_some hi, ← hid]
  exact LifecycleCall.live_of_created h.accounts.isMap hcall hstep

theorem InProgress.takesOut (h : InProgress requests s) (hlive : s.state.registry.Live id)
    (hgone : ¬ (s.advance LifecycleCall.step i).state.registry.Live id) : TakesOut s i id := by
  cases hi : s.calls[i]? with
  | none =>
    rw [Interleaving.advance_of_none hi] at hgone
    exact absurd hlive hgone
  | some call =>
    rw [Interleaving.advance_of_some hi] at hgone
    exact ⟨call, hi, LifecycleCall.removes_of_not_live h.accounts.isMap hlive hgone, hlive, hgone⟩

theorem Reachable.exists_takesOut (h : Reachable p) {before between : List Nat} {i j : Nat}
    {spec spec' : MetricSpec} {m m' : Metric} (hi : requests[i]? = some (.create spec))
    (hj : requests[j]? = some (.create spec')) (hid : spec.id = spec'.id)
    (hfirst : EndsWith (p.serve requests before) i (.created m))
    (hsecond : EndsWith (p.serve requests (before ++ i :: between)) j (.created m')) :
    ∃ first k last, between = first ++ k :: last ∧
      TakesOut (p.serve requests (before ++ i :: first)) k spec.id := by
  have hlive := ((h.inProgress requests before).live_of_created hi hfirst).2
  have hfree := ((h.inProgress requests _).live_of_created hj hsecond).1
  rw [← hid, serve_turn] at hfree
  obtain ⟨first, k, last, rfl, hbefore, hturn⟩ :=
    Interleaving.exists_turn
      (P := fun s : Interleaving Provider LifecycleCall => ¬ s.state.registry.Live spec.id)
      (not_not.mpr hlive) hfree
  refine ⟨first, k, last, rfl, ?_⟩
  rw [← serve_turn] at hbefore hturn
  exact (h.inProgress requests _).takesOut (not_not.mp hbefore) hturn

/-! ## Creations that fail -/

variable {detail : String}

/-- Whether a creation has met the failure that its metric exists. -/
def RefusedAt (i : Nat) (detail : String) (s : Interleaving Provider LifecycleCall) : Prop :=
  ∃ call, s.calls[i]? = some call ∧ call.IsRefused detail

/-- A creation meets that failure at a turn of its own, when its identity is taken or its backend
fails with it. -/
theorem InProgress.live_or_refuses (h : InProgress requests s) {k : Nat}
    (hrequest : requests[i]? = some (.create spec)) (hbefore : ¬ RefusedAt i detail s)
    (hafter : RefusedAt i detail (s.advance LifecycleCall.step k)) :
    k = i ∧ ∃ call, s.calls[i]? = some call ∧ call.isFinished = false ∧
      (s.state.registry.Live spec.id ∨ s.state.Refuses spec (.metricExists detail)) := by
  obtain ⟨call', hcall', hrefused⟩ := hafter
  obtain rfl : k = i := by
    by_contra hk
    rw [Interleaving.getElem?_advance_of_ne s hk] at hcall'
    exact hbefore ⟨call', hcall', hrefused⟩
  refine ⟨rfl, ?_⟩
  cases hcall : s.calls[k]? with
  | none =>
    rw [Interleaving.advance_of_none hcall, hcall] at hcall'
    cases hcall'
  | some call =>
    rw [Interleaving.getElem?_advance_self hcall] at hcall'
    cases hcall'
    have hfree : ¬ call.IsRefused detail := fun hcall' => hbefore ⟨call, hcall, hcall'⟩
    refine ⟨call, rfl, ?_, ?_⟩
    · cases call with
      | finished result => exact absurd hrefused hfree
      | _ => rfl
    · exact (h.stage hrequest hcall).live_or_refuses h.accounts.isMap hfree hrefused

/-- No call brings a backend or takes one away. -/
theorem backends_serve (p : Provider) (requests : List LifecycleRequest) (schedule : List Nat) :
    (p.serve requests schedule).state.backends = p.backends := by
  refine Interleaving.run_induction (P := fun s : Interleaving Provider LifecycleCall =>
    s.state.backends = p.backends) schedule rfl fun s i hs => ?_
  cases hi : s.calls[i]? with
  | none => rwa [Interleaving.advance_of_none hi]
  | some call =>
    obtain ⟨_, _, _, hstep, -⟩ := call.exists_step_eq s.state
    rw [Interleaving.advance_of_some hi]
    exact (congrArg Provider.backends hstep).trans hs

theorem Reachable.exists_live_or_refuses (h : Reachable p) {schedule : List Nat}
    (hrequest : requests[i]? = some (.create spec))
    (hend : (p.serve requests schedule).calls[i]?
      = some (.finished (.failed (.metricExists detail)))) :
    ∃ before after call, schedule = before ++ i :: after ∧
      (p.serve requests before).calls[i]? = some call ∧ call.isFinished = false ∧
      ((p.serve requests before).state.registry.Live spec.id ∨
        (p.serve requests before).state.Refuses spec (.metricExists detail)) := by
  have hstart : ¬ RefusedAt i detail (p.serve requests []) := by
    rintro ⟨call, hcall, hrefused⟩
    have hi : (requests.map LifecycleRequest.call)[i]? = some (.create spec) := by
      rw [List.getElem?_map, hrequest]
      rfl
    cases hi.symm.trans hcall
    exact hrefused
  obtain ⟨before, k, after, rfl, hbefore, hafter⟩ :=
    Interleaving.exists_turn (P := RefusedAt i detail) hstart ⟨_, hend, rfl⟩
  obtain ⟨rfl, call, hcall, hopen, hreason⟩ :=
    (h.inProgress requests before).live_or_refuses hrequest hbefore hafter
  exact ⟨before, after, call, rfl, hcall, hopen, hreason⟩

/-! ## Contexts that are handed back -/

theorem Reachable.ledger_serve (h : Reachable p) (requests : List LifecycleRequest)
    (schedule : List Nat) :
    ∃ new, (p.serve requests schedule).state.ledger = new ++ p.ledger ∧
      ∀ how c failure?, .released how c failure? ∈ new → ∃ before i after request call,
        schedule = before ++ i :: after ∧ requests[i]? = some request ∧
        (p.serve requests before).calls[i]? = some call ∧ c ∈ call.held ∧
        (how = .destroy ↔ request.Destroys) := by
  induction schedule using List.reverseRecOn with
  | nil => exact ⟨[], rfl, by simp⟩
  | append_singleton schedule i ih =>
    obtain ⟨new, hnew, hback⟩ := ih
    have hback' : ∀ how c failure?, .released how c failure? ∈ new →
        ∃ before j after request call, schedule ++ [i] = before ++ j :: after ∧
          requests[j]? = some request ∧ (p.serve requests before).calls[j]? = some call ∧
          c ∈ call.held ∧ (how = .destroy ↔ request.Destroys) := by
      intro how c failure? hmem
      obtain ⟨before, j, after, request, call, rfl, hrest⟩ := hback how c failure? hmem
      exact ⟨before, j, after ++ [i], request, call, by simp, hrest⟩
    rw [serve_turn, Interleaving.run_nil]
    cases hi : (p.serve requests schedule).calls[i]? with
    | none =>
      rw [Interleaving.advance_of_none hi]
      exact ⟨new, hnew, hback'⟩
    | some call =>
      obtain ⟨request, hrequest, hstage⟩ := (h.inProgress requests schedule).exists_stage hi
      obtain ⟨more, hmore, hstep⟩ := hstage.ledger_step (p.serve requests schedule).state
      rw [Interleaving.advance_of_some hi]
      refine ⟨more ++ new, by rw [hmore, hnew, List.append_assoc], ?_⟩
      intro how c failure? hmem
      rcases List.mem_append.mp hmem with hmem | hmem
      · obtain ⟨hheld, hway⟩ := hstep how c failure? hmem
        exact ⟨schedule, i, [], request, call, rfl, hrequest, hi, hheld, hway⟩
      · exact hback' how c failure? hmem

/-- Calls that have ended hold nothing. -/
theorem held_of_finished {calls : List LifecycleCall}
    (h : ∀ call ∈ calls, call.isFinished = true) : calls.flatMap LifecycleCall.held = [] := by
  rw [List.flatMap_eq_nil_iff]
  intro call hcall
  have hfinished := h call hcall
  cases call with
  | finished result => rfl
  | _ => cases hfinished

/-- Two creations of one metric and its destruction. -/
def rivals : List LifecycleRequest := [.create stored, .create stored, .remove .destroy stored.id]

/-- Both creations find the identity free and get a context before one of them takes it. -/
def lateLoss : List Nat := [0, 1, 0, 1, 0, 1, 1, 2, 2]

end Telemetry.Provider
