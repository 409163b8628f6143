import Telemetry.Proofs.Server.Replies

/-!
# Requests without the token

A provider that wants a token tells those who do not show it the kind of their request, which they
know, and nothing else. So nobody without the token can tell two providers apart that want the same
one, whatever metrics they hold, neither by one request nor by a whole connection.

## Main definitions

* `Request.denied`: the reply to a request without the token.
* `AlikeOutside`: tables of providers that differ only behind tokens.

## Main statements

* `answerValue_eq_denied`: two providers answer a request without the token alike.
* `Session.replies_eq_of_alikeOutside`: two servers answer a connection without tokens alike.
-/
namespace Telemetry

open Resp (Value)
open Resp.Codec (feedAll)

variable {lookup lookup' : UInt16 → Option Provider} {p p' : Provider} {r : Request} {v : Value}

/-- The reply to a request that does not show the token. -/
def Request.denied : Request → Frame
  | list _ _ _ => .list .invalidToken []
  | fetch _ _ _ _ _ => .fetch .invalidToken 0 "" ""

/-- Whether a provider wants a token that a request does not show. -/
def Provider.Denies (p : Provider) (r : Request) : Prop := p.token ≠ none ∧ r.token ≠ p.token

/-! ## One request -/

theorem Provider.authorize_of_denies (h : p.Denies r) :
    p.authorize r.token = .error .invalidToken := by
  obtain ⟨hwants, hshows⟩ := h
  rw [authorize_eq, if_neg]
  rintro (hnone | hsame)
  · exact hwants hnone
  · exact hshows hsame

/-- The token is looked at before anything else in a request. -/
theorem Request.answer_of_denies (hp : lookup r.provider = some p) (h : p.Denies r) :
    r.answer lookup = [r.denied] := by
  have hauth := Provider.authorize_of_denies h
  cases r with
  | list number maxIds token =>
    have hlist : p.answerList maxIds token = .list .invalidToken [] := by
      rw [Provider.answerList, show p.authorize token = _ from hauth]
      rfl
    simp only [answer, hp, hlist, denied]
  | fetch number id count region token =>
    have hfetch : p.answerFetch id count region token = [.fetch .invalidToken 0 "" ""] := by
      rw [Provider.answerFetch, show p.authorize token = _ from hauth]
      rfl
    simp only [answer, hp, hfetch, denied]

/-- Two providers that want the same token answer a request without it by the same single frame,
whatever else the request asks for and whatever else there is to know of them. -/
theorem answerValue_eq_denied {secret : String} (hid : p.id = p'.id)
    (hp : lookup p.id = some p) (hp' : lookup' p'.id = some p')
    (htoken : p.token = some secret) (htoken' : p'.token = some secret)
    (hv : Request.ofValue v = .ok r) (hr : r.provider = p.id) (hshown : r.token ≠ some secret) :
    answerValue lookup v = answerValue lookup' v ∧ answerValue lookup v = [r.denied] := by
  have hdenies : p.Denies r := ⟨by simp [htoken], by rwa [htoken]⟩
  have hdenies' : p'.Denies r := ⟨by simp [htoken'], by rwa [htoken']⟩
  have hanswer : answerValue lookup v = [r.denied] := by
    rw [answerValue, hv]
    exact Request.answer_of_denies (hr ▸ hp) hdenies
  have hanswer' : answerValue lookup' v = [r.denied] := by
    rw [answerValue, hv]
    exact Request.answer_of_denies (by rw [hr, hid, hp']) hdenies'
  exact ⟨hanswer.trans hanswer'.symm, hanswer⟩

/-- A provider that wants a token and has a metric, and one that wants the same and has none. -/
def guarded : Provider :=
  { Provider.plain with
    token := some "s3cret"
    registry := (Registry.empty 1).setShard ⟨9⟩
      [(⟨9⟩, {
        id := ⟨9⟩, ns := "load", name := "cpu", description := "", tags := .empty
        operator := .sum
        buffer := ⟨.gauge, 2, #[⟨⟨1⟩, ⟨10⟩, 0⟩], Nat.two_pos, Nat.le_succ 1⟩
        context := none })] 1 }

def guardedEmpty : Provider := { Provider.plain with token := some "s3cret" }

/-- A fetch of the metric, with a token that was guessed and a count that is never good. -/
def guess : Request := .fetch 1 ⟨9⟩ (-1) ⟨7, 24⟩ (some "guess")

theorem answerValue_eq_denied_guess :
    (guarded.find? ⟨9⟩).isSome = true ∧ (guardedEmpty.find? ⟨9⟩).isSome = false ∧
      answerValue (fun _ => some guarded) guess.toValue
        = answerValue (fun _ => some guardedEmpty) guess.toValue ∧
      answerValue (fun _ => some guarded) guess.toValue = [.fetch .invalidToken 0 "" ""] := by
  have hid : guarded.id = guardedEmpty.id := rfl
  have hsame : answerValue (fun _ => some guarded) guess.toValue
        = answerValue (fun _ => some guardedEmpty) guess.toValue ∧
      answerValue (fun _ => some guarded) guess.toValue = [guess.denied] :=
    answerValue_eq_denied hid rfl rfl rfl rfl (Request.ofValue_toValue guess) rfl (by decide)
  exact ⟨by decide +kernel, by decide +kernel, hsame⟩

/-! ## Connections -/

/-- Whether two tables of providers differ only behind tokens: an id leads to the same provider in
both, or to two that want the same token. -/
def AlikeOutside (lookup lookup' : UInt16 → Option Provider) : Prop :=
  ∀ number, lookup number = lookup' number ∨
    ∃ p p' secret, lookup number = some p ∧ lookup' number = some p' ∧
      p.token = some secret ∧ p'.token = some secret

/-- Whether a value is no request that shows the token of a provider. -/
def ShowsNoToken (lookup : UInt16 → Option Provider) (v : Value) : Prop :=
  ∀ r p, Request.ofValue v = .ok r → lookup r.provider = some p → p.token ≠ none →
    r.token ≠ p.token

theorem answerValue_eq_of_alikeOutside (h : AlikeOutside lookup lookup')
    (hv : ShowsNoToken lookup v) : answerValue lookup v = answerValue lookup' v := by
  rw [answerValue, answerValue]
  cases hr : Request.ofValue v with
  | error failure => rfl
  | ok r =>
    rcases h r.provider with hsame | ⟨p, p', secret, hp, hp', htoken, htoken'⟩
    · simp only [Request.answer, hsame]
    · have hwants : p.token ≠ none := by simp [htoken]
      have hshows := hv r p hr hp hwants
      have hdenies' : p'.Denies r := by
        rw [Provider.Denies, htoken', ← htoken]
        exact ⟨hwants, hshows⟩
      exact (Request.answer_of_denies hp ⟨hwants, hshows⟩).trans
        (Request.answer_of_denies hp' hdenies').symm

/-- On a connection on which no token is shown, tables that differ only behind tokens cannot be told
apart, wherever the chunks are cut. -/
theorem Session.replies_eq_of_alikeOutside (h : AlikeOutside lookup lookup') (chunks : List Bytes)
    (stops : Bool)
    (hshows : ∀ v ∈ (feedAll .request .empty chunks).values, ShowsNoToken lookup v) :
    replies lookup chunks stops = replies lookup' chunks stops := by
  rw [replies_eq, replies_eq]
  congr 1
  exact List.flatMap_congr fun v hv => answerValue_eq_of_alikeOutside h (hshows v hv)

end Telemetry
