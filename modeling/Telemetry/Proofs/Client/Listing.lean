import Telemetry.Proofs.Client.Fetch
import Telemetry.Proofs.Provider.Contexts
import Telemetry.Proofs.Server.Routing

/-!
# What a listing yields

A request for the metrics of a provider goes to the provider of the id that is asked for, whoever
else is on the server. What comes back through two writers and two readers is what that provider
lists: as many identities of its live metrics as there are and as are asked for, and none twice.

## Main definitions

* `Server.listed`: what a server has for a listing.

## Main statements

* `Client.Reached.list_eq`: a listing yields what the server has.
* `Client.Reached.list_live`: and that names live metrics of the provider that was asked.
-/
namespace Telemetry

open Resp (Limits)

variable {net : Network} {address : String} {s : Server} {w : Wire} {c : Client} {f : Frame}

/-- The identities that a server has for a listing, or what is wrong with it. -/
def Server.listed (s : Server) (token : Option String) (provider : UInt16) (max : UInt64) :
    Except Failure (List MetricId) :=
  match s.provider? provider with
  | none => .error (.invalidProvider "list")
  | some p =>
    if p.token = none ∨ token = p.token then .ok (p.list max.toNat) else .error .invalidToken

/-- A reply can be sent to a peer, who reads it as a result. -/
structure Frame.Lists (f : Frame) (result : Except Failure (List MetricId)) : Prop where
  isReply : f.IsReply
  keepsBounds : f.KeepsBounds
  isNamed : f.IsNamed
  read : Client.readListing f = result

theorem Frame.lists_success {ids : List MetricId} (h : ids.length ≤ Limits.peer.maxArray) :
    (Frame.list .success ids).Lists (.ok ids) :=
  ⟨trivial, h, trivial, rfl⟩

theorem Frame.lists_failure {status : Status} {failure : Failure}
    (h : status.toFailure? "list" = some failure) : (Frame.list status []).Lists (.error failure) :=
  ⟨trivial, Nat.zero_le _, trivial, by rw [Client.readListing, Status.check, h]; rfl⟩

/-- The answer to a listing is one reply, which is read as what the server has. -/
theorem Server.answer_list {number : UInt16} {max : UInt64}
    (hbound : ∀ p, s.provider? number = some p →
      (p.list max.toNat).length ≤ Limits.peer.maxArray)
    (token : Option String) :
    ∃ f : Frame, (Request.list number max token).answer s.provider? = [f] ∧
      f.Lists (s.listed token number max) := by
  simp only [Request.answer, Request.provider, listed]
  cases hp : s.provider? number with
  | none => exact ⟨_, rfl, Frame.lists_failure rfl⟩
  | some p =>
    refine ⟨_, rfl, ?_⟩
    rw [Provider.answerList, p.authorize_eq]
    by_cases htoken : p.token = none ∨ token = p.token
    · simp only [if_pos htoken]
      exact Frame.lists_success (hbound p hp)
    · simp only [if_neg htoken]
      exact Frame.lists_failure rfl

namespace Client

/-- A listing yields what the server has, whatever client and server did before. -/
theorem Reached.list_eq (hreached : Reached address c w) (hnet : net.Serves address s)
    (hopen : s.accepting = true) (number : UInt16) (max : UInt64)
    (hbound : ∀ p, s.provider? number = some p →
      (p.list max.toNat).length ≤ Limits.peer.maxArray) :
    (c.list net address number max w).1 = s.listed c.token number max := by
  obtain ⟨hstep, e, he, ha⟩ := inStep_endpointFor hreached.inStep address
  have htoken : (c.endpointFor address).2.token = c.token := by
    obtain ⟨endpoints, known, heq⟩ := c.eq_of_endpointFor address
    rw [heq]
  obtain ⟨f, hanswer, hf⟩ := s.answer_list hbound c.token
  obtain ⟨l, hl⟩ := Endpoint.exchange_eq (r := .list number max c.token) hstep.consistent
    (hstep.endpoints _ e he) ha hnet hopen hreached.inStep.token none
  have hawait : e.awaitReply none { l with inbox := encodeFrames [f] }
      = .ok (⟨f, none⟩, { l with inbox := [] }) := by
    change e.awaitReply none { l with inbox := encodeFrames (([] : List Push).map .bulk ++ [f]) } = _
    exact Endpoint.awaitReply_pushes hf.isReply hf.keepsBounds hf.isNamed (by simp) l
  rw [hanswer, hawait] at hl
  simp only [Client.list, htoken, exchange_fst he, hl]
  exact hf.read

/-- A listing asks the provider of the id that is given, and yields as many identities of its live
metrics as there are and as are asked for. -/
theorem Reached.list_live (hreached : Reached address c w) (hnet : net.Serves address s)
    (hopen : s.accepting = true) (hs : s.Reachable) (number : UInt16) (max : UInt64)
    (hbound : ∀ p, s.provider? number = some p →
      min max.toNat p.registry.metrics.length ≤ Limits.peer.maxArray) :
    match s.provider? number with
    | none => (c.list net address number max w).1 = .error (.invalidProvider "list")
    | some p =>
      p.id = number ∧
        if p.token = none ∨ c.token = p.token then
          ∃ ids, (c.list net address number max w).1 = .ok ids ∧
            ids.length = min max.toNat p.registry.metrics.length ∧ ids.Nodup ∧
            ∀ id ∈ ids, p.registry.Live id
        else (c.list net address number max w).1 = .error .invalidToken := by
  have hlist : ∀ p, s.provider? number = some p →
      (p.list max.toNat).length = min max.toNat p.registry.metrics.length ∧
        (p.list max.toNat).Nodup ∧ ∀ id ∈ p.list max.toNat, p.registry.Live id :=
    fun p hp => (hs.of_provider? hp).1.accounts.isMap.list max.toNat
  have heq := hreached.list_eq hnet hopen number max fun p hp =>
    (hlist p hp).1.le.trans (hbound p hp)
  rw [Server.listed] at heq
  cases hp : s.provider? number with
  | none =>
    rw [hp] at heq
    exact heq
  | some p =>
    rw [hp] at heq
    refine ⟨(hs.of_provider? hp).2, ?_⟩
    by_cases htoken : p.token = none ∨ c.token = p.token
    · simp only [if_pos htoken] at heq ⊢
      exact ⟨p.list max.toNat, heq, hlist p hp⟩
    · simp only [if_neg htoken] at heq ⊢
      exact heq

/-- A provider with one metric. -/
def second : Provider := (Provider.create { Provider.plain with id := 2 } Provider.stored).2

/-- A server with two providers, of which the other one has no metrics. -/
def shared : Server := { providers := #[.plain, second], routes := [(2, 1), (1, 0)] }

theorem reachable_shared : shared.Reachable := by
  have hplain : Provider.start 2 {} = .ok { Provider.plain with id := 2 } := rfl
  have hsecond : second.Reachable := .step (.start hplain) (.create Provider.stored)
  have hregister : ({} : Server).register 1 {}
      = .ok (0, { providers := #[.plain], routes := [(1, 0)] }) := rfl
  have hattach : ({ providers := #[.plain, second], routes := [(1, 0)] } : Server).attach 1
      = .ok shared := rfl
  exact .step (.step (.step .start (.register hregister)) (.make hsecond)) (.attach hattach)

theorem Reached.list_live_second :
    ∃ ids, (({} : Client).list (shared.network "host:1") "host:1" 2 10 {}).1 = .ok ids ∧
      ids.length = 1 ∧ ids.Nodup ∧ ∀ id ∈ ids, second.registry.Live id := by
  have hreached : Reached "host:1" {} {} := .start Wire.consistent_empty rfl rfl rfl nofun
  have hlive := hreached.list_live (Server.serves_network shared "host:1") rfl reachable_shared 2 10
    fun p hp => (Nat.min_le_left 10 _).trans (by decide)
  have hp : shared.provider? 2 = some second := rfl
  have hcount : second.registry.metrics.length = 1 := by decide +kernel
  have htoken : second.token = none := rfl
  rw [hp] at hlive
  simp only [htoken, true_or, if_true, hcount] at hlive
  exact hlive.2

end Client

end Telemetry
