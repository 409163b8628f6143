import Telemetry.Client.Endpoint
import Telemetry.Proofs.Provider.Answers
import Telemetry.Proofs.Server.Service
import Mathlib

/-!
# Exchanges with a server

A connection is in step with a server if nothing came in that was not taken off, and nothing was
sent that was not a whole request. An exchange leaves a connection in step or drops it: what comes
back for a request is taken off exactly, up to the reply, or the exchange fails.

## Main definitions

* `Connection.InStep`: the invariant of a connection between two exchanges.
* `Endpoint.InStep`: the invariant of an endpoint.

## Main statements

* `Endpoint.awaitReply_answer`: of an answer nothing is left behind the reply.
* `Endpoint.exchange_inStep`: an exchange keeps an endpoint in step.
-/
namespace Telemetry

open Resp (Value)

variable {net : Network} {address : String} {w w' : Wire} {region? : Option Region} {f : Frame}
  {reply : Reply} {rest : Bytes} {n : Nat}

/-! ## Taking frames off a connection -/

namespace Connection

variable {c c' : Connection}

theorem receive_of_value {v : Value} (h : Value.parse .peer c.inbox = .value v rest) :
    c.receive = .value v { c with inbox := rest } := by
  rw [receive, Resp.Codec.decode_of_value h]

theorem receive_of_invalid {fault : Resp.Fault} (h : Value.parse .peer c.inbox = .invalid fault) :
    c.receive = .failed (.transport fault.message) := by
  rw [receive, Resp.Codec.decode_of_invalid h]

theorem eq_of_receive {v : Value} (h : c.receive = .value v c') :
    c' = { c with inbox := c'.inbox } := by
  unfold receive at h
  split at h
  · cases h
  · cases h
    rfl
  · split at h
    · cases h
    · cases h
    · split at h <;> cases h

end Connection

namespace Endpoint

variable {e e' : Endpoint} {c c' : Connection}

theorem awaitReply_of_invalid {fault : Resp.Fault}
    (h : Value.parse .peer c.inbox = .invalid fault) :
    e.awaitReply region? c = .error (.transport fault.message) := by
  have hr := Connection.receive_of_invalid h
  rw [awaitReply]
  split
  · rename_i hn
    rw [hr] at hn
    cases hn
  · rename_i hf
    rw [hr] at hf
    cases hf
    rfl
  · rename_i hv
    rw [hr] at hv
    cases hv

theorem awaitReply_of_receive {v : Value} (hr : c.receive = .value v c') :
    e.awaitReply region? c
      = match Frame.ofValue v with
        | .error failure => .error failure
        | .ok (.bulk push) =>
          match takePush region? push with
          | .error failure => .error failure
          | .ok region? => e.awaitReply region? c'
        | .ok frame => .ok (⟨frame, region?⟩, c') := by
  rw [awaitReply]
  split
  · rename_i hn
    rw [hr] at hn
    cases hn
  · rename_i hn
    rw [hr] at hn
    cases hn
  · rename_i hv
    rw [hr] at hv
    cases hv
    rfl

theorem awaitReply_of_value {v : Value} (h : Value.parse .peer c.inbox = .value v rest) :
    e.awaitReply region? c
      = match Frame.ofValue v with
        | .error failure => .error failure
        | .ok (.bulk push) =>
          match takePush region? push with
          | .error failure => .error failure
          | .ok region? => e.awaitReply region? { c with inbox := rest }
        | .ok frame => .ok (⟨frame, region?⟩, { c with inbox := rest }) :=
  awaitReply_of_receive (Connection.receive_of_value h)

/-- A push goes into the region of the exchange. -/
theorem awaitReply_of_push {v : Value} {push : Push}
    (h : Value.parse .peer c.inbox = .value v rest) (hf : Frame.ofValue v = .ok (.bulk push)) :
    e.awaitReply region? c
      = match takePush region? push with
        | .error failure => .error failure
        | .ok region? => e.awaitReply region? { c with inbox := rest } := by
  rw [awaitReply_of_value h, hf]

/-- A reply ends the exchange. -/
theorem awaitReply_of_reply {v : Value} (h : Value.parse .peer c.inbox = .value v rest)
    (hf : Frame.ofValue v = .ok f) (hreply : f.IsReply) :
    e.awaitReply region? c = .ok (⟨f, region?⟩, { c with inbox := rest }) := by
  rw [awaitReply_of_value h, hf]
  cases f with
  | list _ _ | fetch _ _ _ _ => rfl
  | bulk _ | rejected _ _ => exact hreply.elim

/-- Taking frames off leaves everything of a connection but its inbox. -/
theorem eq_of_awaitReply (h : e.awaitReply region? c = .ok (reply, c')) :
    c' = { c with inbox := c'.inbox } := by
  induction hn : c.inbox.length using Nat.strong_induction_on generalizing c region? with
  | _ n ih =>
  rw [awaitReply] at h
  split at h
  · cases h
  · cases h
  · rename_i v c'' hr
    have hc := Connection.eq_of_receive hr
    have hlt := Connection.inbox_length_lt_of_receive hr
    split at h
    · cases h
    · split at h
      · cases h
      · rw [ih _ (hn ▸ hlt) h rfl, hc]
    · cases h
      exact hc

/-- Of an answer nothing is left behind the reply. -/
theorem awaitReply_answer {pushes : List Push} (hf : f.IsReply)
    (hin : c.inbox = encodeFrames (pushes.map .bulk ++ [f]))
    (h : e.awaitReply region? c = .ok (reply, c')) : c' = { c with inbox := [] } := by
  induction pushes generalizing c region? with
  | nil =>
    have hin' : c.inbox = f.toValue.encode ++ [] := by rw [hin]; rfl
    rcases Frame.parse_or_invalid hf.isOneLine [] with ⟨hp, hv⟩ | ⟨fault, hp⟩
    · rw [← hin'] at hp
      rw [awaitReply_of_reply hp hv hf] at h
      cases h
      rfl
    · rw [← hin'] at hp
      rw [awaitReply_of_invalid hp] at h
      cases h
  | cons push pushes ih =>
    have hin' : c.inbox = (Frame.bulk push).toValue.encode
        ++ encodeFrames (pushes.map .bulk ++ [f]) := by rw [hin]; rfl
    rcases @Frame.parse_or_invalid (.bulk push) trivial
      (encodeFrames (pushes.map .bulk ++ [f])) with ⟨hp, hv⟩ | ⟨fault, hp⟩
    · rw [← hin'] at hp
      rw [awaitReply_of_push hp hv] at h
      split at h
      · cases h
      · have := @ih _ { c with inbox := encodeFrames (pushes.map .bulk ++ [f]) } rfl h
        rw [this]
    · rw [← hin'] at hp
      rw [awaitReply_of_invalid hp] at h
      cases h

end Endpoint

/-! ## Between two exchanges -/

/-- Whether a connection is between two exchanges, if it was made to the address of the server:
nothing is left of what came in, and whole requests were sent. -/
structure Connection.InStep (address : String) (w : Wire) (c : Connection) : Prop where
  opened : (openedTo w.events)[c.number]? = some c.address
  inbox : c.address = address → c.inbox = []
  ending : c.address = address → c.ending = .silent
  between : c.address = address → Session.Between (sentOn c.number w.events)

/-- Whether the connection of an endpoint, if it has one, is between two exchanges. -/
def Endpoint.InStep (address : String) (w : Wire) (e : Endpoint) : Prop :=
  ∀ c, e.connection? = some c → c.address = e.address ∧ c.InStep address w

namespace Connection

variable {c c' : Connection} {s : Server} {r : Request}

/-- What is sent on other connections does not matter. -/
theorem InStep.mono (h : c.InStep address w) (hw : w.Consistent) (hon : w.OnlyOn n w')
    (hne : c.number ≠ n) : c.InStep address w' where
  opened := hon.openedTo_eq h.opened
  inbox := h.inbox
  ending := h.ending
  between ha := by
    rw [hon.sent _ (hw.lt_of_openedTo h.opened) hne]
    exact h.between ha

theorem onlyOn_send (net : Network) (hw : w.Consistent) (hn : c.number < w.connections)
    (v : Value) : w.OnlyOn c.number (c.send net v w).2 := by
  have hon := Wire.onlyOn_send net hw hn v.encode
  unfold send
  simp only
  split
  · exact hon
  · split <;> exact hon

theorem send_eq (net : Network) (c : Connection) (v : Value) (w : Wire) :
    (c.send net v w).1.number = c.number ∧ (c.send net v w).1.address = c.address := by
  unfold send
  simp only
  split
  · exact ⟨rfl, rfl⟩
  · split <;> exact ⟨rfl, rfl⟩

/-- A request to the server brings in its answer, and leaves the server between two requests. -/
theorem send_request (hnet : net.Serves address s) (hc : c.InStep address w)
    (ha : c.address = address) (hr : r.KeepsBounds) :
    (c.send net r.toValue w).1 = { c with inbox := encodeFrames (r.answer s.provider?) } ∧
      Session.Between (sentOn c.number (c.send net r.toValue w).2.events) := by
  have hbetween := hc.between ha
  have hopened : (openedTo (.sent c.number r.toValue.encode :: w.events))[c.number]?
      = some address := by
    rw [openedTo_sent, hc.opened, ha]
  have hdelivery : net.deliver (.sent c.number r.toValue.encode :: w.events) c.number
      = { bytes := encodeFrames (r.answer s.provider?), ending := .silent } := by
    rw [hnet.delivers _ _ hopened, sentOn_sent_self, s.reply_request hbetween hr]
  unfold send
  simp only [Wire.send, Wire.record, hdelivery, hc.ending ha, if_true, hc.inbox ha,
    List.nil_append, sentOn_sent_self, true_and]
  exact hbetween.append hr

end Connection

namespace Endpoint

variable {e e' : Endpoint} {c c' : Connection} {s : Server} {r : Request}

/-- The connection of an endpoint, the one it has or a new one, is in step. -/
theorem connect_ok (hw : w.Consistent) (he : e.InStep address w)
    (h : e.connect net w = (.ok c, w')) :
    c.address = e.address ∧ c.InStep address w' ∧ w.OnlyOn c.number w' ∧
      (e.connection? = some c ∨ w.connections ≤ c.number) := by
  unfold connect at h
  split at h
  · rename_i c₀ hc
    cases h
    obtain ⟨ha, hstep⟩ := he c hc
    exact ⟨ha, hstep, .refl hw, .inl hc⟩
  · unfold Connection.open? at h
    split at h
    · cases h
    · rename_i number w₁ hconnect
      cases h
      obtain ⟨rfl, hopened, hsent, hon⟩ := Wire.connect_ok hw hconnect
      refine ⟨rfl, ⟨hopened, fun _ => rfl, fun _ => rfl, fun _ => ?_⟩, hon, .inr le_rfl⟩
      rw [hsent]
      exact Session.between_nil

theorem connect_error {failure : Failure} (hw : w.Consistent)
    (h : e.connect net w = (.error failure, w')) : w.OnlyOn n w' := by
  unfold connect at h
  split at h
  · cases h
  · unfold Connection.open? at h
    split at h
    · rename_i hconnect
      cases h
      exact Wire.connect_error hw hconnect
    · cases h

/-- A reply to a request leaves the connection on which it came in step. -/
theorem awaitReply_inStep (hw : w.Consistent) (hc : c.InStep address w)
    (hnet : net.Serves address s) (hr : r.KeepsBounds)
    (h : e.awaitReply region? (c.send net r.toValue w).1 = .ok (reply, c')) :
    c'.number = c.number ∧ c'.address = c.address ∧
      c'.InStep address (c.send net r.toValue w).2 := by
  obtain ⟨hnumber, haddress⟩ := Connection.send_eq net c r.toValue w
  have hon := Connection.onlyOn_send net hw (hw.lt_of_openedTo hc.opened) r.toValue
  have hc' := eq_of_awaitReply h
  have hn : c'.number = c.number := by rw [hc', hnumber]
  have ha : c'.address = c.address := by rw [hc', haddress]
  refine ⟨hn, ha, ?_⟩
  by_cases hto : c.address = address
  · obtain ⟨hsend, hbetween⟩ := Connection.send_request hnet hc hto hr
    obtain ⟨pushes, f, hanswer, hreply, -⟩ := r.exists_answer_eq s.provider?
    rw [hsend, hanswer] at h
    have hclean := awaitReply_answer hreply rfl h
    rw [hclean]
    exact ⟨hon.openedTo_eq hc.opened, fun _ => rfl, fun _ => hc.ending hto, fun _ => hbetween⟩
  · have hopened := hon.openedTo_eq hc.opened
    refine ⟨by rw [hn, ha, hopened], fun h => ?_, fun h => ?_, fun h => ?_⟩ <;>
      exact absurd (ha ▸ h) hto

/-- An exchange sends on one connection only, and leaves the endpoint in step. -/
theorem exchange_inStep (hw : w.Consistent) (he : e.InStep address w)
    (hnet : net.Serves address s) (hr : r.KeepsBounds) {result : Except Failure Reply}
    (h : e.exchange net r.toValue region? w = (result, e', w')) :
    e'.address = e.address ∧ e'.InStep address w' ∧ ∃ n, w.OnlyOn n w' ∧
      (∀ c, e'.connection? = some c → c.number = n) ∧
      ((∃ c, e.connection? = some c ∧ c.number = n) ∨ w.connections ≤ n) := by
  unfold exchange at h
  split at h
  · rename_i failure w₁ hconnect
    cases h
    exact ⟨rfl, nofun, w.connections, connect_error hw hconnect, nofun, .inr le_rfl⟩
  · rename_i c w₁ hconnect
    obtain ⟨ha, hstep, hon, hfrom⟩ := connect_ok hw he hconnect
    have hn := hon.consistent.lt_of_openedTo hstep.opened
    have hon' := hon.trans hw (Connection.onlyOn_send net hon.consistent hn r.toValue)
    have hnumber : (∃ c', e.connection? = some c' ∧ c'.number = c.number) ∨
        w.connections ≤ c.number := hfrom.imp_left fun hc => ⟨c, hc, rfl⟩
    simp only at h
    split at h
    · cases h
      exact ⟨rfl, nofun, c.number, hon', nofun, hnumber⟩
    · rename_i reply c' hawait
      cases h
      obtain ⟨hnumber', haddress, hstep'⟩ := awaitReply_inStep hon.consistent hstep hnet hr hawait
      refine ⟨rfl, fun c'' hc'' => ?_, c.number, hon', fun c'' hc'' => ?_, hnumber⟩
      · cases hc''
        exact ⟨haddress.trans ha, hstep'⟩
      · cases hc''
        exact hnumber'

end Endpoint

end Telemetry
