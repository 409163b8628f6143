import Telemetry.Proofs.Provider.Contexts
import Telemetry.Provider.Calls

/-!
# Steps of calls

What one atomic step of a call does to the contexts, to the metrics that are live and to the ledger,
whatever other calls have done before it.

## Main definitions

* `Backend.KnowsNoMetrics`: a backend leaves duplicate identities to the registry.
* `LifecycleRequest`: what a caller asks for.
* `LifecycleRequest.Stage`: how far a call for a request may be.

## Main statements

* `LifecycleCall.exists_step_eq`: what a step leaves alone.
* `LifecycleRequest.Stage.accounts`: a step loses no context and hands none back twice.
* `LifecycleCall.removes_of_not_live`: only removals end the life of a metric.
* `LifecycleRequest.Stage.live_or_refuses`: why a creation is told that its metric exists.
* `LifecycleRequest.Stage.ledger_step`: which contexts a step hands back and how.
-/
namespace Telemetry

/-- Whether a backend leaves it to the registry to tell a duplicate identity. It is told of
providers and configurations only, so it does not know which metrics there are. -/
def Backend.KnowsNoMetrics (b : Backend) : Prop :=
  ∀ before making provider config detail,
    b.makeFailure? before making provider config ≠ some (.metricExists detail)

theorem Backend.knowsNoMetrics_dummy : Backend.dummy.KnowsNoMetrics := nofun

namespace Provider

variable {p p' : Provider} {m : Metric} {spec : MetricSpec} {detail : String}

/-! ## Parts of a creation and of a removal -/

/-- Whether the backend that a description asks for has something against making a context. -/
def Refuses (p : Provider) (spec : MetricSpec) (failure : Failure) : Prop :=
  ∃ b backend, spec.backend = some b ∧ p.backends.find? b.name = some backend ∧
    backend.makeFailure? p.ledger b.making p.id b.config = some failure

/-- The backend that a description asks for. -/
def backendFor? (p : Provider) (spec : MetricSpec) : Option Backend :=
  spec.backend.bind fun b => p.backends.find? b.name

theorem not_refuses (h : ∀ b ∈ p.backendFor? spec, b.KnowsNoMetrics) (detail : String) :
    ¬ p.Refuses spec (.metricExists detail) := by
  rintro ⟨b, backend, hspec, hfind, hrefuses⟩
  have hfor : p.backendFor? spec = some backend := by
    rw [backendFor?, hspec, Option.bind_some, hfind]
  exact h backend hfor _ _ _ _ _ hrefuses

theorem contains_of_describe_error (h : p.describe spec = .error (.metricExists detail)) :
    p.registry.contains spec.id = true := by
  simp only [describe, Failure.bind_eq_error_iff] at h
  rcases h with hmake | ⟨m, hmake, hcontains⟩
  · exact absurd hmake (Metric.ofSpec_ne_metricExists _ _ _)
  · obtain ⟨buffer, rfl⟩ := Metric.eq_of_ofSpec hmake
    split at hcontains
    · assumption
    · cases hcontains

theorem refuses_of_attach_error (ha : p.attach spec m = (.error (.metricExists detail), p')) :
    p.Refuses spec (.metricExists detail) := by
  rw [attach] at ha
  split at ha
  · cases ha
  · rename_i b hb
    split at ha <;> rename_i hmake <;> cases ha
    rcases makeContext_error hmake with ⟨-, hget⟩ | ⟨backend, hfind, hmake, -⟩
    · rw [BackendRegistry.get] at hget
      split at hget <;> cases hget
    · exact ⟨b, backend, hb, hfind, hmake⟩

end Provider

/-! ## Requests and calls -/

/-- What a caller asks a provider for. -/
inductive LifecycleRequest where
  | create (spec : MetricSpec)
  | remove (how : Release) (id : MetricId)
  | removeAll

namespace LifecycleRequest

/-- The call for a request before its first step. -/
def call : LifecycleRequest → LifecycleCall
  | create spec => .create spec
  | remove how id => .remove how id
  | removeAll => .removeAll

/-- Whether the storage of a context goes when a call for the request hands it back. A creation that
opened its storage leaves it. -/
def Destroys : LifecycleRequest → Prop
  | create spec => ∃ b, spec.backend = some b ∧ b.openExisting = false
  | remove how _ => how = .destroy
  | removeAll => False

/-- How far a call for a request may be. -/
inductive Stage : LifecycleRequest → LifecycleCall → Prop where
  | create (spec : MetricSpec) : Stage (.create spec) (.create spec)
  | attach {spec : MetricSpec} {m : Metric} (hid : m.id = spec.id) (hcontext : m.context = none) :
      Stage (.create spec) (.attach spec m)
  | insert {spec : MetricSpec} {m : Metric} (hid : m.id = spec.id) :
      Stage (.create spec) (.insert spec m)
  | withdraw (spec : MetricSpec) (m : Metric) (failure : Failure) :
      Stage (.create spec) (.withdraw spec m failure)
  | created {spec : MetricSpec} {m : Metric} (hid : m.id = spec.id) :
      Stage (.create spec) (.finished (.created m))
  | notCreated (spec : MetricSpec) (failure : Failure) :
      Stage (.create spec) (.finished (.failed failure))
  | remove (how : Release) (id : MetricId) : Stage (.remove how id) (.remove how id)
  | handBack (how : Release) (id : MetricId) (m : Metric) :
      Stage (.remove how id) (.handBack how m)
  | removed (how : Release) (id : MetricId) : Stage (.remove how id) (.finished .removed)
  | notRemoved (how : Release) (id : MetricId) (failure : Failure) :
      Stage (.remove how id) (.finished (.failed failure))
  | drain (shards : List (Fin shardCount)) (taken : List Metric) :
      Stage .removeAll (.drain shards taken)
  | handBackAll (left : List Metric) (count : Nat) : Stage .removeAll (.handBackAll left count)
  | removedAll (count : Nat) : Stage .removeAll (.finished (.removedAll count))

theorem stage_call (request : LifecycleRequest) : Stage request request.call := by
  cases request with
  | create spec => exact .create spec
  | remove how id => exact .remove how id
  | removeAll => exact .drain _ _

theorem held_call (request : LifecycleRequest) : request.call.held = [] := by
  cases request <;> rfl

theorem withdrawal_eq_destroy_iff (spec : MetricSpec) :
    spec.withdrawal = .destroy ↔ (create spec).Destroys := by
  rw [MetricSpec.withdrawal, Destroys]
  cases spec.backend with
  | none => simp
  | some b => cases hb : b.openExisting <;> simp [hb]

/-! ## Contexts -/

variable {p p' : Provider} {m m' : Metric} {request : LifecycleRequest} {call : LifecycleCall}
  {spec : MetricSpec}

theorem Stage.step (h : Stage request call) (p : Provider) : Stage request (call.step p).2 := by
  cases h with
  | create spec =>
    rw [LifecycleCall.step]
    split
    · exact .notCreated spec _
    · rename_i hdescribe
      obtain ⟨hid, hcontext⟩ := Provider.describe_ok hdescribe
      exact .attach hid hcontext
  | attach hid hcontext =>
    rw [LifecycleCall.step]
    split
    · exact .notCreated _ _
    · rename_i hattach
      obtain ⟨_, _, -, -, hmetric⟩ := Provider.exists_attach_eq hattach
      obtain ⟨context, rfl⟩ := hmetric _ rfl
      exact .insert hid
  | insert hid =>
    rw [LifecycleCall.step]
    split
    · exact .created hid
    · exact .withdraw _ _ _
  | withdraw spec m failure => exact .notCreated spec failure
  | created hid => exact .created hid
  | notCreated spec failure => exact .notCreated spec failure
  | remove how id =>
    rw [LifecycleCall.step]
    split
    · exact .notRemoved how id _
    · exact .handBack how id _
  | handBack how id m => exact .removed how id
  | removed how id => exact .removed how id
  | notRemoved how id failure => exact .notRemoved how id failure
  | drain shards taken =>
    cases shards with
    | nil => exact .handBackAll _ _
    | cons i shards => exact .drain _ _
  | handBackAll left count =>
    cases left with
    | nil => exact .removedAll count
    | cons m left => exact .handBackAll _ _
  | removedAll count => exact .removedAll count

/-- A step loses no context and hands none back twice. -/
theorem Stage.accounts {others : List BackendContext} (h : Stage request call)
    (hp : p.Accounts (call.held ++ others)) :
    (call.step p).1.Accounts ((call.step p).2.held ++ others) := by
  cases h with
  | create spec =>
    rw [LifecycleCall.step]
    split <;> exact hp
  | attach hid hcontext =>
    have hp' : p.Accounts others := hp
    rw [LifecycleCall.step]
    split
    · rename_i hattach
      exact hp'.attach_error hattach
    · rename_i hattach
      exact hp'.attach hcontext hattach
  | insert hid =>
    rw [LifecycleCall.step]
    split
    · rename_i hinsert
      exact hp.insert hinsert
    · exact hp
  | withdraw spec m failure => exact hp.release _
  | remove how id =>
    have hp' : p.Accounts others := hp
    rw [LifecycleCall.step]
    split
    · exact hp'
    · rename_i htake
      exact (hp'.take htake).2
  | handBack how id m => exact hp.release how
  | drain shards taken =>
    cases shards with
    | nil => exact hp
    | cons i shards =>
      refine (hp.drainShard i).perm ?_
      simp only [LifecycleCall.step, LifecycleCall.held, List.filterMap_append, ← List.append_assoc]
      exact List.perm_append_comm.append_right others
  | handBackAll left count =>
    cases left with
    | nil => exact hp
    | cons m left =>
      rw [LifecycleCall.held, Provider.filterMap_context_cons, List.append_assoc] at hp
      exact hp.release .close
  | created | notCreated | removed | notRemoved | removedAll => exact hp

end LifecycleRequest

namespace LifecycleCall

variable {p : Provider} {m : Metric} {call : LifecycleCall} {id : MetricId}

/-! ## What a step leaves alone -/

/-- How a call hands contexts back. -/
def release? : LifecycleCall → Option Release
  | withdraw spec _ _ => some spec.withdrawal
  | handBack how _ => some how
  | handBackAll _ _ => some .close
  | _ => none

/-- A step of a call changes the registry, the ledger and the next ticket. What it hands back the
call held before. -/
theorem exists_step_eq (p : Provider) (call : LifecycleCall) :
    ∃ registry new ticket, (call.step p).1
        = { p with registry := registry, ledger := new ++ p.ledger, nextTicket := ticket } ∧
      ∀ how c failure?, .released how c failure? ∈ new →
        c ∈ call.held ∧ call.release? = some how := by
  have hback : ∀ how m, (∀ c ∈ m.context.toList, c ∈ call.held) → call.release? = some how →
      ∃ registry new ticket, p.release how m
          = { p with registry := registry, ledger := new ++ p.ledger, nextTicket := ticket } ∧
        ∀ how' c failure?, .released how' c failure? ∈ new →
          c ∈ call.held ∧ call.release? = some how' := by
    intro how m hheld hway
    obtain ⟨new, hrelease, hnew⟩ := p.exists_release_eq how m
    refine ⟨p.registry, new, p.nextTicket, hrelease, fun how' c failure? hmem => ?_⟩
    obtain ⟨c', failure', hc, hentry⟩ := hnew _ hmem
    cases hentry
    exact ⟨hheld c (Option.mem_toList.mpr hc), hway⟩
  cases call with
  | create spec =>
    rw [step]
    split <;> exact ⟨_, [], _, rfl, by simp⟩
  | attach spec m =>
    rw [step]
    split <;> rename_i hattach <;>
      obtain ⟨new, ticket, rfl, hnew, -⟩ := Provider.exists_attach_eq hattach <;>
      exact ⟨_, new, _, rfl, fun how c failure? hmem => by cases hnew _ hmem⟩
  | insert spec m =>
    rw [step]
    split
    · rename_i hinsert
      obtain ⟨registry, -, rfl⟩ := Failure.map_eq_ok_iff.mp hinsert
      exact ⟨registry, [], _, rfl, by simp⟩
    · exact ⟨_, [], _, rfl, by simp⟩
  | withdraw spec m failure => exact hback _ m (fun c hc => hc) rfl
  | remove how id =>
    rw [step]
    split
    · exact ⟨_, [], _, rfl, by simp⟩
    · rename_i htake
      obtain ⟨⟨m, registry⟩, -, heq⟩ := Failure.map_eq_ok_iff.mp htake
      cases heq
      exact ⟨registry, [], _, rfl, by simp⟩
  | handBack how m => exact hback _ m (fun c hc => hc) rfl
  | drain shards taken => cases shards <;> exact ⟨_, [], _, rfl, by simp⟩
  | handBackAll left count =>
    cases left with
    | nil => exact ⟨_, [], _, rfl, by simp⟩
    | cons m left =>
      refine hback _ m (fun c hc => ?_) rfl
      rw [held, Provider.filterMap_context_cons]
      exact List.mem_append_left _ hc
  | finished result => exact ⟨_, [], _, rfl, by simp⟩

/-! ## Live metrics -/

/-- Whether the next step of a call may take the metric of an identity out of the registry. -/
def Removes (id : MetricId) : LifecycleCall → Prop
  | remove _ id' => id' = id
  | drain (_ :: _) _ => True
  | _ => False

/-- Only removals end the life of a metric. -/
theorem removes_of_not_live (hmap : p.registry.IsMap) (hlive : p.registry.Live id)
    (hgone : ¬ (call.step p).1.registry.Live id) : call.Removes id := by
  have hkept : (call.step p).1.registry ≠ p.registry := fun h => hgone (h ▸ hlive)
  have hback : ∀ how m, (p.release how m).registry = p.registry := fun how m => by
    obtain ⟨_, hrelease, -⟩ := p.exists_release_eq how m
    rw [hrelease]
  cases call with
  | create spec =>
    refine absurd ?_ hkept
    rw [step]
    split <;> rfl
  | attach spec m =>
    refine absurd ?_ hkept
    rw [step]
    split <;> rename_i hattach <;>
      obtain ⟨_, _, rfl, -⟩ := Provider.exists_attach_eq hattach <;> rfl
  | insert spec m =>
    rw [step] at hgone
    split at hgone
    · rename_i hinsert
      obtain ⟨r, hr, rfl⟩ := Failure.map_eq_ok_iff.mp hinsert
      exact absurd ((Registry.live_of_perm_cons (hmap.insert hr).2).mpr (.inr hlive)) hgone
    · exact absurd hlive hgone
  | withdraw spec m failure => exact absurd (hback _ _) hkept
  | remove how id' =>
    rw [step] at hgone
    split at hgone
    · exact absurd hlive hgone
    · rename_i htake
      obtain ⟨⟨m, r⟩, hr, heq⟩ := Failure.map_eq_ok_iff.mp htake
      cases heq
      obtain ⟨-, hid, hperm⟩ := hmap.remove hr
      rcases (Registry.live_of_perm_cons hperm).mp hlive with hm | hrest
      · exact hid.symm.trans hm
      · exact absurd hrest hgone
  | handBack how m => exact absurd (hback _ _) hkept
  | drain shards taken =>
    cases shards with
    | nil => exact absurd rfl hkept
    | cons i shards => trivial
  | handBackAll left count =>
    cases left with
    | nil => exact absurd rfl hkept
    | cons m left => exact absurd (hback _ _) hkept
  | finished result => exact absurd rfl hkept

/-- A creation succeeds if its identity is free, and takes it. -/
theorem live_of_created (hmap : p.registry.IsMap) (hcall : call.isFinished = false)
    (hstep : (call.step p).2 = .finished (.created m)) :
    ¬ p.registry.Live m.id ∧ (call.step p).1.registry.Live m.id := by
  cases call with
  | insert spec m' =>
    rw [step] at hstep ⊢
    split at hstep
    · rename_i p' hinsert
      cases hstep
      obtain ⟨r, hr, rfl⟩ := Failure.map_eq_ok_iff.mp hinsert
      refine ⟨hmap.not_live_of_insert hr, ?_⟩
      exact (Registry.live_of_perm_cons (hmap.insert hr).2).mpr (.inl rfl)
    · cases hstep
  | create | attach | remove =>
    rw [step] at hstep
    split at hstep <;> cases hstep
  | withdraw | handBack => cases hstep
  | drain shards taken => cases shards <;> cases hstep
  | handBackAll left count => cases left <;> cases hstep
  | finished result => cases hcall

/-- Whether a creation has met the failure that its metric exists. -/
def IsRefused (detail : String) : LifecycleCall → Prop
  | withdraw _ _ failure => failure = .metricExists detail
  | finished (.failed failure) => failure = .metricExists detail
  | _ => False

end LifecycleCall

namespace LifecycleRequest

variable {p p' : Provider} {m : Metric} {request : LifecycleRequest} {call : LifecycleCall}
  {spec : MetricSpec} {detail : String}

/-- A creation is told that its metric exists when there is one, or by its backend. -/
theorem Stage.live_or_refuses (h : Stage (.create spec) call) (hmap : p.registry.IsMap)
    (hbefore : ¬ call.IsRefused detail) (hafter : (call.step p).2.IsRefused detail) :
    p.registry.Live spec.id ∨ p.Refuses spec (.metricExists detail) := by
  cases h with
  | create =>
    left
    rw [LifecycleCall.step] at hafter
    split at hafter
    · rename_i failure hdescribe
      obtain rfl : failure = .metricExists detail := hafter
      exact (hmap.contains_iff _).mp (Provider.contains_of_describe_error hdescribe)
    · cases hafter
  | @attach _ m hid hcontext =>
    right
    rw [LifecycleCall.step] at hafter
    split at hafter
    · rename_i failure p' hattach
      obtain rfl : failure = .metricExists detail := hafter
      exact Provider.refuses_of_attach_error hattach
    · cases hafter
  | @insert _ m hid =>
    left
    rw [LifecycleCall.step] at hafter
    split at hafter
    · cases hafter
    · rename_i hinsert
      have hr := Failure.map_eq_error_iff.mp hinsert
      rw [← hid]
      exact hmap.live_of_insert_error hr
  | withdraw _ m failure => exact absurd hafter hbefore
  | created | notCreated => exact absurd hafter hbefore

/-! ## The ledger -/

/-- The way in which a call hands contexts back is by the request. -/
theorem Stage.destroys_iff {how : Release} (h : Stage request call)
    (hway : call.release? = some how) : how = .destroy ↔ request.Destroys := by
  cases h with
  | withdraw spec m failure =>
    cases hway
    exact withdrawal_eq_destroy_iff spec
  | handBack how' id m =>
    cases hway
    exact Iff.rfl
  | handBackAll left count =>
    cases hway
    simp [Destroys]
  | _ => cases hway

/-- What a step hands back the call held before, and the way is by the request. -/
theorem Stage.ledger_step (h : Stage request call) (p : Provider) :
    ∃ new, (call.step p).1.ledger = new ++ p.ledger ∧
      ∀ how c failure?, .released how c failure? ∈ new →
        c ∈ call.held ∧ (how = .destroy ↔ request.Destroys) := by
  obtain ⟨_, new, _, hstep, hnew⟩ := call.exists_step_eq p
  refine ⟨new, congrArg Provider.ledger hstep, fun how c failure? hmem => ?_⟩
  obtain ⟨hheld, hway⟩ := hnew how c failure? hmem
  exact ⟨hheld, h.destroys_iff hway⟩

end LifecycleRequest

end Telemetry
