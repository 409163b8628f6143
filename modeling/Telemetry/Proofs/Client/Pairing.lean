import Telemetry.Proofs.Network.Answers

/-!
# Replies and their requests

Replies do not say to which request they belong. An endpoint pairs them all the same: what comes in
for a request on a settled connection belongs to it, an exchange that succeeds takes all of that off,
and one that fails drops the connection. So it does not matter how exchanges failed before, or what
was done on other connections in the meantime.

## Main definitions

* `Endpoint.Run`: exchanges on one endpoint, one after the other.
* `Endpoint.Exchanged.Paired`: an exchange hears nothing but the answer to its own request.

## Main statements

* `Endpoint.Run.paired`
-/
namespace Telemetry

open Resp (Value)

/-- Whether a client makes sense of a value. -/
def Frame.IsLegible (v : Value) : Prop := ∃ f, Frame.ofValue v = .ok f

/-- What a client makes of a spelled value. -/
def Spelled.frame (s : Spelled) : Except Failure Frame := Frame.ofValue s.value

variable {net : Network} {address : String} {timeoutMs : Nat} {w w' : Wire}
  {answer : List WireEvent → Nat → Answer Frame.IsLegible} {c c' : Connection}
  {e e' : Endpoint} {region? : Option Region} {reply : Reply} {frames : List Frame}
  {request : Value} {result : Except Failure Reply}

/-! ## Frames off an answer -/

/-- Frames that come off a beginning of some spelled values and debris are the first of those values.
-/
theorem Connection.exists_of_reads {a : Answer Frame.IsLegible} {l : List Spelled}
    (hin : c.inbox <+: l.flatMap Spelled.bytes ++ a.debris) (h : c.Reads frames c') :
    ∃ front back, l = front ++ back ∧ front.map Spelled.frame = frames.map .ok ∧
      c.inbox = front.flatMap Spelled.bytes ++ c'.inbox ∧
      c'.inbox <+: back.flatMap Spelled.bytes ++ a.debris := by
  induction h generalizing l with
  | nil c => exact ⟨[], l, rfl, rfl, rfl, hin⟩
  | cons receive frame rest ih =>
    cases l with
    | nil => exact absurd ⟨_, frame⟩ (not_legible_of_receive hin receive)
    | cons s l =>
      rw [List.flatMap_cons, List.append_assoc] at hin
      obtain ⟨rfl, hinbox, hrest⟩ := eq_of_receive_of_prefix hin receive
      obtain ⟨front, back, rfl, hframes, hinbox', hrest'⟩ := ih hrest
      refine ⟨s :: front, back, rfl, ?_, ?_, hrest'⟩
      · rw [List.map_cons, List.map_cons, hframes, Spelled.frame, frame]
      · rw [hinbox, hinbox', List.flatMap_cons, List.append_assoc]

/-- Frames that come off a beginning of an answer are the first of that answer. -/
theorem Connection.frames_of_reads {a : Answer Frame.IsLegible} (hin : c.inbox <+: a.bytes)
    (h : c.Reads frames c') : frames.map .ok <+: a.spelled.map Spelled.frame := by
  obtain ⟨front, back, hsplit, hframes, -⟩ := exists_of_reads hin h
  rw [hsplit, List.map_append, hframes]
  exact List.prefix_append _ _

/-- The only value of an answer that is no push is the reply at its end. -/
theorem Answer.eq_reply_of_not_isPush {a : Answer Frame.IsLegible} {front back : List Spelled}
    {s : Spelled} (h : a.spelled = front ++ s :: back) (hs : ¬ IsPush s.value) :
    front = a.pushes ∧ a.reply? = some s ∧ back = [] := by
  have hnotMem : s ∉ a.pushes := fun hmem => hs (a.arePushes s hmem)
  rw [spelled] at h
  cases hr : a.reply? with
  | none =>
    rw [hr, Option.toList_none, List.append_nil] at h
    exact absurd (h ▸ List.mem_append_right front List.mem_cons_self) hnotMem
  | some r =>
    rw [hr, Option.toList_some] at h
    rcases List.eq_nil_or_concat back with rfl | ⟨back, last, rfl⟩
    · obtain ⟨hfront, hlast⟩ := List.append_inj' h rfl
      cases hlast
      exact ⟨hfront.symm, rfl, rfl⟩
    · have hsplit : a.pushes ++ [r] = (front ++ s :: back) ++ [last] := by
        rw [h, List.append_assoc]
        simp
      obtain ⟨hpushes, -⟩ := List.append_inj' hsplit rfl
      exact absurd (hpushes ▸ List.mem_append_right front List.mem_cons_self) hnotMem

/-- An exchange that succeeds on an answer takes all of it off: the pushes go into the region, and the
reply is returned. -/
theorem Endpoint.awaitReply_of_answer {a : Answer Frame.IsLegible} (hin : c.inbox <+: a.bytes)
    (h : e.awaitReply region? c = .ok (reply, c')) :
    (∃ s, a.reply? = some s ∧ s.frame = .ok reply.frame) ∧
      (∃ pushes : List Push, a.pushes.map Spelled.frame = pushes.map (fun push => .ok (.bulk push)) ∧
        pushes.foldlM takePush region? = .ok reply.region?) ∧
      c.inbox = a.bytes ∧ c' = { c with inbox := [] } := by
  obtain ⟨pushes, hreads, hends, hfold⟩ := reads_of_awaitReply h
  obtain ⟨front, back, hsplit, hframes, hinbox, hrest⟩ := Connection.exists_of_reads hin hreads
  rw [List.map_append, List.map_map, List.map_singleton] at hframes
  obtain ⟨pushed, last, rfl, hpushed, hlast⟩ := List.map_eq_append_iff.mp hframes
  obtain ⟨s, rfl, hs⟩ := List.map_eq_singleton_iff.mp hlast
  have hnoPush : ¬ IsPush s.value := by
    rintro ⟨push, hpush⟩
    rw [Spelled.frame, hpush] at hs
    exact hends push (Except.ok.inj hs).symm
  rw [List.append_assoc, List.singleton_append] at hsplit
  obtain ⟨rfl, hreply, rfl⟩ := a.eq_reply_of_not_isPush hsplit hnoPush
  have hdebris := Answer.debris_eq_nil hreply
  have hnil : c'.inbox = [] := by
    rw [List.flatMap_nil, hdebris, List.append_nil] at hrest
    exact List.prefix_nil.mp hrest
  refine ⟨⟨s, hreply, hs⟩, ⟨pushes, hpushed, hfold⟩, ?_, ?_⟩
  · rw [hinbox, hnil, Answer.bytes, Answer.spelled, hreply, hdebris]
    rfl
  · rw [eq_of_awaitReply h, hnil]

/-! ## Runs -/

namespace Endpoint

/-- The connection of an exchange with what came in for the request, if a connection was made. -/
def heard? (net : Network) (e : Endpoint) (request : Value) (w : Wire) : Option Connection :=
  match e.connect net w with
  | (.error _, _) => none
  | (.ok c, w) => some (c.send net request w).1

theorem heard?_of_error {failure : Failure} (h : e.connect net w = (.error failure, w')) :
    e.heard? net request w = none := by
  rw [heard?, h]

theorem heard?_of_ok (h : e.connect net w = (.ok c, w')) :
    e.heard? net request w = some (c.send net request w').1 := by
  rw [heard?, h]

/-- An exchange that was made. -/
structure Exchanged where
  request : Value
  region? : Option Region
  /-- The connection with what came in for the request, if there was one. -/
  heard? : Option Connection
  result : Except Failure Reply
  /-- The events behind the exchange, newest first. -/
  events : List WireEvent

/-- Exchanges on a new endpoint, one after the other, with anything done on other connections between
them. -/
inductive Run (net : Network) (address : String) (timeoutMs : Nat) :
    List Exchanged → Endpoint → Wire → Prop where
  | start {w : Wire} (consistent : w.Consistent) :
      Run net address timeoutMs [] { address := address, timeoutMs := timeoutMs } w
  | elsewhere {made : List Exchanged} {e : Endpoint} {w w' : Wire}
      (run : Run net address timeoutMs made e w) (alone : w.LeavesAlone e.connection? w') :
      Run net address timeoutMs made e w'
  | exchange {made : List Exchanged} {e e' : Endpoint} {w w' : Wire} {request : Value}
      {region? : Option Region} {result : Except Failure Reply}
      (run : Run net address timeoutMs made e w)
      (step : e.exchange net request region? w = (result, e', w')) :
      Run net address timeoutMs
        (made ++ [⟨request, region?, e.heard? net request w, result, w'.events⟩]) e' w'

/-- Whether an exchange hears on its connection nothing but the answer to its request. -/
structure Exchanged.PairedOn (answer : List WireEvent → Nat → Answer Frame.IsLegible)
    (x : Exchanged) (c : Connection) : Prop where
  asked : ∃ older, x.events = .sent c.number x.request.encode :: older
  /-- Whatever comes off belongs to the answer, whether the exchange succeeds or not. -/
  own : ∀ frames c', c.Reads frames c' →
    frames.map .ok <+: (answer x.events c.number).spelled.map Spelled.frame
  reply : ∀ reply, x.result = .ok reply →
    ∃ s, (answer x.events c.number).reply? = some s ∧ s.frame = .ok reply.frame
  /-- The region is filled from the pushes of the answer. -/
  region : ∀ reply, x.result = .ok reply → ∃ pushes : List Push,
    (answer x.events c.number).pushes.map Spelled.frame = pushes.map (fun push => .ok (.bulk push)) ∧
      pushes.foldlM takePush x.region? = .ok reply.region?

/-- Whether an exchange has no reply but the one to its request. -/
def Exchanged.Paired (answer : List WireEvent → Nat → Answer Frame.IsLegible) (x : Exchanged) :
    Prop :=
  match x.heard? with
  | none => ∀ reply, x.result ≠ .ok reply
  | some c => x.PairedOn answer c

/-- Whether the connection of an endpoint, if it has one, is settled. -/
def Settled (net : Network) (answer : List WireEvent → Nat → Answer Frame.IsLegible) (w : Wire)
    (e : Endpoint) : Prop :=
  Connection.KeptSettled net e.address answer w e.connection?

theorem connect_settled (hw : w.Consistent) (he : e.Settled net answer w)
    (h : e.connect net w = (.ok c, w')) : c.Settled net e.address answer w' ∧ w'.Consistent := by
  rw [connect] at h
  split at h
  · rename_i c₀ hc
    cases h
    exact ⟨he c hc, hw⟩
  · exact Connection.settled_open hw h

/-- An exchange is paired, and leaves the endpoint settled. -/
theorem exchange_settled (hnet : net.Relays e.address answer) (hw : w.Consistent)
    (he : e.Settled net answer w) (h : e.exchange net request region? w = (result, e', w')) :
    w'.Consistent ∧ e'.address = e.address ∧ e'.Settled net answer w' ∧
      Exchanged.Paired answer ⟨request, region?, e.heard? net request w, result, w'.events⟩ := by
  rw [exchange] at h
  split at h
  · rename_i failure w₁ hconnect
    cases h
    have hw₁ := (connect_error (n := 0) hw hconnect).consistent
    refine ⟨hw₁, rfl, Connection.keptSettled_none, ?_⟩
    rw [heard?_of_error hconnect]
    intro reply hreply
    cases hreply
  · rename_i c w₁ hconnect
    obtain ⟨hc, hw₁⟩ := connect_settled hw he hconnect
    have hw' := hc.consistent_send hw₁ request
    have hin := Connection.inbox_send_of_settled hnet hc request
    have hevents := Connection.events_send net c request w₁
    have hnumber := (Connection.send_eq net c request w₁).1
    have hsettled := Connection.settled_of_send (v := request) hc
    rw [← hnumber] at hin hevents hsettled
    simp only at h
    rw [heard?_of_ok hconnect]
    split at h
    · cases h
      refine ⟨hw', rfl, Connection.keptSettled_none, ⟨w₁.events, hevents⟩, ?_, ?_, ?_⟩
      · exact fun frames c' => Connection.frames_of_reads hin
      · rintro reply ⟨⟩
      · rintro reply ⟨⟩
    · rename_i reply c' hawait
      cases h
      obtain ⟨hreply, hregion, hall, rfl⟩ := awaitReply_of_answer hin hawait
      refine ⟨hw', rfl, (hsettled hall).kept, ⟨w₁.events, hevents⟩, ?_, ?_, ?_⟩
      · exact fun frames c' => Connection.frames_of_reads hin
      · rintro reply' ⟨⟩
        exact hreply
      · rintro reply' ⟨⟩
        exact hregion

/-- Whatever comes before it, an endpoint is settled between two exchanges, and every exchange hears
nothing but the answer to its own request. -/
theorem Run.paired {made : List Exchanged} (hnet : net.Relays address answer)
    (h : Run net address timeoutMs made e w) :
    w.Consistent ∧ e.address = address ∧ e.Settled net answer w ∧
      ∀ x ∈ made, x.Paired answer := by
  induction h with
  | start consistent =>
    refine ⟨consistent, rfl, Connection.keptSettled_none, ?_⟩
    intro x hmem
    cases hmem
  | elsewhere run alone ih =>
    obtain ⟨hw, haddress, he, hpaired⟩ := ih
    exact ⟨alone.consistent, haddress, he.leavesAlone alone, hpaired⟩
  | exchange run step ih =>
    obtain ⟨hw, haddress, he, hpaired⟩ := ih
    obtain ⟨hw', haddress', he', hx⟩ := exchange_settled (haddress ▸ hnet) hw he step
    refine ⟨hw', haddress'.trans haddress, he', ?_⟩
    intro x hmem
    rcases List.mem_append.mp hmem with hmem | hmem
    · exact hpaired x hmem
    · rw [List.mem_singleton.mp hmem]
      exact hx

end Endpoint

end Telemetry
