import Telemetry.Network.Link
import Telemetry.Proofs.Client.Pairing

/-!
# Answers on a link

A link takes the first value that comes in for an answer. It drops a connection on which a call
fails, but a push in front of the reply is no failure of the call: the push is returned, the
connection stays in use, and the reply is what the next call finds. So calls on a link get their own
replies exactly as long as these come without pushes. A connection on which the selection of the
database was answered by a push is never used.

## Main definitions

* `Link.Run`: calls on one link, one after the other.
* `Link.Called.Paired`, `Link.Called.Unpushed`: a call has its own reply, or a reply without pushes.

## Main statements

* `Link.Run.paired_iff_unpushed`
* `exchanges_paired_and_calls_paired_iff`: endpoints and links compared.
-/
namespace Telemetry

open Resp (Value)

/-- Whether a link makes sense of a value, as it does of every one. -/
def Link.IsLegible (_ : Value) : Prop := True

variable {net : Network} {address : String} {database? : Option Nat} {w w' : Wire}
  {answer : List WireEvent → Nat → Answer Link.IsLegible} {c c' : Connection} {l l' : Link}
  {request v : Value}

/-- On a settled connection a call returns the first push of its answer, or else its reply and leaves
the connection settled. -/
theorem Connection.call_of_settled (hnet : net.Relays address answer)
    (hc : c.Settled net address answer w) (h : c.call net request w = (.value v c', w')) :
    w'.events = .sent c.number request.encode :: w.events ∧
      (((answer w'.events c.number).pushes ≠ [] ∧ IsPush v) ∨
        ((answer w'.events c.number).pushes = [] ∧
          (∃ s, (answer w'.events c.number).reply? = some s ∧ s.value = v) ∧
          c'.Settled net address answer w')) := by
  rw [call] at h
  obtain ⟨hreceive, rfl⟩ := Prod.mk.inj h
  refine ⟨events_send net c request w, ?_⟩
  rcases receive_answer (inbox_send_of_settled hnet hc request) hreceive trivial with
    hpushed | ⟨hpushes, hreply, hall, hnil⟩
  · exact .inl hpushed
  · right
    refine ⟨hpushes, hreply, ?_⟩
    rw [eq_of_receive hreceive, hnil]
    exact settled_of_send hc hall

theorem Connection.consistent_call (hc : c.Settled net address answer w) (hw : w.Consistent)
    (request : Value) : (c.call net request w).2.Consistent := hc.consistent_send hw request

/-- A push acknowledges nothing. -/
theorem exists_acknowledged_of_isPush (h : IsPush v) :
    ∃ failure, acknowledged v = .error failure := by
  obtain ⟨push, hpush⟩ := h
  cases v with
  | simple text | integer n => cases hpush
  | error text | bulk data | nilBulk | array items | nilArray => exact ⟨_, rfl⟩

namespace Link

/-! ## One call -/

theorem select_settled (hnet : net.Relays address answer) (hw : w.Consistent)
    (hc : c.Settled net address answer w) {r : Option (Except Failure Connection)}
    (h : select net database? c w = (r, w')) :
    w'.Consistent ∧ ∀ c', r = some (.ok c') → c'.Settled net address answer w' := by
  cases database? with
  | none =>
    cases h
    refine ⟨hw, ?_⟩
    rintro c' ⟨⟩
    exact hc
  | some database =>
    have hw' := Connection.consistent_call hc hw (command ["SELECT", toString database])
    simp only [select] at h
    split at h
    · rename_i hcall
      cases h
      rw [hcall] at hw'
      exact ⟨hw', nofun⟩
    · rename_i hcall
      cases h
      rw [hcall] at hw'
      exact ⟨hw', nofun⟩
    · rename_i v c₁ w₁ hcall
      cases h
      rw [hcall] at hw'
      refine ⟨hw', ?_⟩
      intro c' hr
      rcases (Connection.call_of_settled hnet hc hcall).2 with ⟨-, hpush⟩ | ⟨-, -, hsettled⟩
      · -- a push does not acknowledge the selection
        obtain ⟨failure, hfailure⟩ := exists_acknowledged_of_isPush hpush
        rw [hfailure] at hr
        cases hr
      · cases hack : acknowledged v with
        | error failure =>
          rw [hack] at hr
          cases hr
        | ok done =>
          rw [hack] at hr
          cases hr
          exact hsettled

/-- Whether the connection of a link, if it has one, is settled. -/
def Settled (net : Network) (answer : List WireEvent → Nat → Answer Link.IsLegible) (w : Wire)
    (l : Link) : Prop :=
  Connection.KeptSettled net l.address answer w l.connection?

theorem connect_settled (hnet : net.Relays l.address answer) (hw : w.Consistent)
    (hl : l.Settled net answer w) {r : Option (Except Failure Connection)}
    (h : l.connect net database? w = (r, w')) :
    w'.Consistent ∧ ∀ c, r = some (.ok c) → c.Settled net l.address answer w' := by
  rw [connect] at h
  split at h
  · rename_i c hc
    cases h
    refine ⟨hw, ?_⟩
    rintro c' ⟨⟩
    exact hl c hc
  · split at h
    · rename_i hopen
      cases h
      exact ⟨Connection.consistent_of_open_error hw hopen, nofun⟩
    · rename_i c w₁ hopen
      obtain ⟨hc, hw₁⟩ := Connection.settled_open hw hopen
      exact select_settled hnet hw₁ hc h

/-- A call that was made. -/
structure Called where
  request : Value
  /-- What the call returned, if it returned. -/
  result : Option (Except Failure Value)
  /-- The events behind the call, newest first. -/
  events : List WireEvent

/-- Whether a call has no answer but the reply to its request. -/
def Called.Paired (answer : List WireEvent → Nat → Answer Link.IsLegible) (x : Called) : Prop :=
  ∀ v, x.result = some (.ok v) → ∃ n older, x.events = .sent n x.request.encode :: older ∧
    ∃ s, (answer x.events n).reply? = some s ∧ s.value = v

/-- Whether the answer to a call, if it returned one, had no pushes. -/
def Called.Unpushed (answer : List WireEvent → Nat → Answer Link.IsLegible) (x : Called) : Prop :=
  ∀ v, x.result = some (.ok v) → ∃ n older, x.events = .sent n x.request.encode :: older ∧
    (answer x.events n).pushes = []

/-- A call that returns an answer has taken it off its connection and keeps that; any other drops its
connection. -/
theorem call_cases {result : Option (Except Failure Value)}
    (h : l.call net database? request w = (result, l', w')) :
    ((∀ v, result ≠ some (.ok v)) ∧ l' = { l with connection? := none }) ∨
      ∃ c w₁ v c', l.connect net database? w = (some (.ok c), w₁) ∧
        c.call net request w₁ = (.value v c', w') ∧ result = some (.ok v) ∧
        l' = { l with connection? := some c' } := by
  rw [call] at h
  split at h
  · cases h
    exact .inl ⟨nofun, rfl⟩
  · cases h
    exact .inl ⟨nofun, rfl⟩
  · rename_i c w₁ hconnect
    split at h
    · cases h
      exact .inl ⟨nofun, rfl⟩
    · cases h
      exact .inl ⟨nofun, rfl⟩
    · rename_i v c' w₂ hcall
      cases h
      exact .inr ⟨c, w₁, v, c', hconnect, hcall, rfl, rfl⟩

theorem address_call {result : Option (Except Failure Value)}
    (h : l.call net database? request w = (result, l', w')) : l'.address = l.address := by
  rcases call_cases h with ⟨-, rfl⟩ | ⟨_, _, _, _, -, -, -, rfl⟩
  · rfl
  · rfl

theorem consistent_call (hnet : net.Relays l.address answer) (hw : w.Consistent)
    (hl : l.Settled net answer w) {result : Option (Except Failure Value)}
    (h : l.call net database? request w = (result, l', w')) : w'.Consistent := by
  rw [call] at h
  split at h
  · rename_i hconnect
    cases h
    exact (connect_settled hnet hw hl hconnect).1
  · rename_i hconnect
    cases h
    exact (connect_settled hnet hw hl hconnect).1
  · rename_i c w₁ hconnect
    obtain ⟨hw₁, hc⟩ := connect_settled hnet hw hl hconnect
    have hw' := Connection.consistent_call (hc c rfl) hw₁ request
    rcases hcall : c.call net request w₁ with ⟨receipt, w₂⟩
    rw [hcall] at h hw'
    cases receipt with
    | nothing | failed failure | value v c' =>
      cases h
      exact hw'

/-- On a settled link a call has its own reply exactly if no push comes with it, and then leaves the
link settled. -/
theorem call_settled (hnet : net.Relays l.address answer) (hw : w.Consistent)
    (hl : l.Settled net answer w) {result : Option (Except Failure Value)}
    (h : l.call net database? request w = (result, l', w')) :
    (Called.Paired answer ⟨request, result, w'.events⟩
        ↔ Called.Unpushed answer ⟨request, result, w'.events⟩) ∧
      (Called.Unpushed answer ⟨request, result, w'.events⟩ → l'.Settled net answer w') := by
  rcases call_cases h with ⟨hnone, rfl⟩ | ⟨c, w₁, v, c', hconnect, hcall, rfl, rfl⟩
  · refine ⟨iff_of_true ?_ ?_, fun _ => Connection.keptSettled_none⟩
    · exact fun v hv => absurd hv (hnone v)
    · exact fun v hv => absurd hv (hnone v)
  · obtain ⟨hw₁, hc⟩ := connect_settled hnet hw hl hconnect
    obtain ⟨hevents, hcases⟩ := Connection.call_of_settled hnet (hc c rfl) hcall
    rcases hcases with ⟨hpushes, hpush⟩ | ⟨hpushes, hreply, hsettled⟩
    · have hnotPaired : ¬ Called.Paired answer ⟨request, some (.ok v), w'.events⟩ := by
        intro hpaired
        obtain ⟨n, older, -, s, hs, rfl⟩ := hpaired v rfl
        exact Answer.not_isPush_of_reply? hs hpush
      have hnotUnpushed : ¬ Called.Unpushed answer ⟨request, some (.ok v), w'.events⟩ := by
        intro hunpushed
        obtain ⟨n, older, hsent, hnil⟩ := hunpushed v rfl
        cases hevents.symm.trans hsent
        exact hpushes hnil
      exact ⟨iff_of_false hnotPaired hnotUnpushed, fun h => absurd h hnotUnpushed⟩
    · refine ⟨iff_of_true ?_ ?_, ?_⟩
      · rintro v' ⟨⟩
        exact ⟨c.number, w₁.events, hevents, hreply⟩
      · rintro v' ⟨⟩
        exact ⟨c.number, w₁.events, hevents, hpushes⟩
      · exact fun _ => hsettled.kept

/-! ## Runs -/

/-- Calls on a new link, one after the other, with anything done on other connections between them. -/
inductive Run (net : Network) (address : String) (database? : Option Nat) :
    List Called → Link → Wire → Prop where
  | start {w : Wire} (consistent : w.Consistent) :
      Run net address database? [] { address := address } w
  | elsewhere {made : List Called} {l : Link} {w w' : Wire}
      (run : Run net address database? made l w) (alone : w.LeavesAlone l.connection? w') :
      Run net address database? made l w'
  | call {made : List Called} {l l' : Link} {w w' : Wire} {request : Value}
      {result : Option (Except Failure Value)} (run : Run net address database? made l w)
      (step : l.call net database? request w = (result, l', w')) :
      Run net address database? (made ++ [⟨request, result, w'.events⟩]) l' w'

/-- As long as no push came with a reply, a link is settled between two calls; and for so long, and no
longer, every call has its own reply. -/
theorem Run.paired_iff_unpushed {made : List Called} (hnet : net.Relays address answer)
    (h : Run net address database? made l w) :
    l.address = address ∧
      ((∀ x ∈ made, x.Paired answer) ↔ ∀ x ∈ made, x.Unpushed answer) ∧
      ((∀ x ∈ made, x.Unpushed answer) → w.Consistent ∧ l.Settled net answer w) := by
  induction h with
  | start consistent =>
    refine ⟨rfl, iff_of_true ?_ ?_, fun _ => ⟨consistent, Connection.keptSettled_none⟩⟩
    · intro x hmem
      cases hmem
    · intro x hmem
      cases hmem
  | elsewhere run alone ih =>
    obtain ⟨haddress, hiff, hsettled⟩ := ih
    refine ⟨haddress, hiff, ?_⟩
    intro hunpushed
    exact ⟨alone.consistent, (hsettled hunpushed).2.leavesAlone alone⟩
  | @call before _ _ _ _ _ _ _ step ih =>
    obtain ⟨rfl, hiff, hsettled⟩ := ih
    refine ⟨address_call step, ?_⟩
    simp only [List.forall_mem_append, List.forall_mem_singleton]
    by_cases hunpushed : ∀ x ∈ before, x.Unpushed answer
    · obtain ⟨hw, hl⟩ := hsettled hunpushed
      obtain ⟨hx, hl'⟩ := call_settled hnet hw hl step
      refine ⟨and_congr hiff hx, ?_⟩
      rintro ⟨-, hlast⟩
      exact ⟨consistent_call hnet hw hl step, hl' hlast⟩
    · refine ⟨iff_of_false ?_ ?_, ?_⟩
      · exact fun h => hunpushed (hiff.mp h.1)
      · exact fun h => hunpushed h.1
      · exact fun h => absurd h.1 hunpushed

end Link

/-! ## Endpoints and links -/

/-- Exchanges on an endpoint have no reply but their own, whatever the peer sends in front of it and
however other exchanges fail. Calls on a link have their own replies if and only if no push came with
any of them. -/
theorem exchanges_paired_and_calls_paired_iff {net net' : Network} {address address' : String}
    {timeoutMs : Nat} {database? : Option Nat}
    {answer : List WireEvent → Nat → Answer Frame.IsLegible}
    {answer' : List WireEvent → Nat → Answer Link.IsLegible}
    {exchanged : List Endpoint.Exchanged} {called : List Link.Called} {e : Endpoint} {l : Link}
    {w w' : Wire} (hnet : net.Relays address answer)
    (hexchanged : Endpoint.Run net address timeoutMs exchanged e w)
    (hnet' : net'.Relays address' answer') (hcalled : Link.Run net' address' database? called l w') :
    (∀ x ∈ exchanged, x.Paired answer) ∧
      ((∀ x ∈ called, x.Paired answer') ↔ ∀ x ∈ called, x.Unpushed answer') :=
  ⟨(hexchanged.paired hnet).2.2.2, (hcalled.paired_iff_unpushed hnet').2.1⟩

namespace Pushing

/-- A push of nothing, and replies to a client and to a link. -/
def push : Spelled := .written (Frame.bulk ⟨7, []⟩).toValue (by decide +kernel)

def listing : Spelled := .written (Frame.list .success []).toValue (by decide +kernel)

def stored : Spelled := .written (.simple "OK") (by decide +kernel)

def refused : Spelled := .written (.error "ERR full") (by decide +kernel)

theorem isPush_push : IsPush push.value := ⟨⟨7, []⟩, rfl⟩

theorem not_isPush_listing : ¬ IsPush listing.value := by
  rintro ⟨push, hpush⟩
  have hframe : Frame.ofValue listing.value = .ok (.list .success []) := rfl
  rw [hframe] at hpush
  cases hpush

/-- A server that pushes before every listing. -/
def server (_ : List WireEvent) (_ : Nat) : Answer Frame.IsLegible where
  pushes := [push]
  conclusion := .reply listing not_isPush_listing
  arePushes := by
    intro s hs
    rw [List.mem_singleton.mp hs]
    exact isPush_push

/-- A store that acknowledges the first request on a connection, behind a push, and refuses the
others. -/
def store (events : List WireEvent) (n : Nat) : Answer Link.IsLegible where
  pushes := if (sentOn n events).length = 1 then [push] else []
  conclusion :=
    if (sentOn n events).length = 1 then .reply stored nofun else .reply refused nofun
  arePushes := by
    intro s hs
    split at hs
    · rw [List.mem_singleton.mp hs]
      exact isPush_push
    · cases hs

theorem bytes_server (events : List WireEvent) (n : Nat) :
    (server events n).bytes = push.bytes ++ listing.bytes := by
  simp [Answer.bytes, Answer.spelled, Answer.reply?, Answer.debris, server]

theorem bytes_store {events : List WireEvent} {n : Nat} (h : (sentOn n events).length = 1) :
    (store events n).bytes = push.bytes ++ stored.bytes := by
  simp [Answer.bytes, Answer.spelled, Answer.reply?, Answer.debris, store, h]

/-- An exchange with the server. -/
def exchange : Except Failure Reply × Endpoint × Wire :=
  Endpoint.exchange (.prompt server) { address := "server", timeoutMs := 500 } .nilArray
    (some ⟨7, 24, []⟩) {}

theorem exchange_eq : exchange.1 = .ok ⟨.list .success [], some ⟨7, 24, []⟩⟩ := by
  let c : Connection := ⟨0, "server", push.bytes ++ listing.bytes, .silent⟩
  let w : Wire := { events := [.opened "server"], connections := 1 }
  have hconnect : Endpoint.connect (.prompt server) { address := "server", timeoutMs := 500 } {}
      = (.ok { c with inbox := [] }, w) := rfl
  have hsend : Connection.send (.prompt server) { c with inbox := [] } .nilArray w
      = (c, w.record (.sent 0 Value.nilArray.encode)) := by
    simp [Connection.send, Wire.send, Network.prompt, bytes_server, c]
  have hlisting : Connection.receive { c with inbox := listing.bytes }
      = .value listing.value { c with inbox := [] } :=
    Connection.receive_of_spelled (List.append_nil _).symm
  have hreads : c.Reads ([⟨7, []⟩].map .bulk ++ [.list .success []]) { c with inbox := [] } :=
    .cons (Connection.receive_of_spelled rfl) rfl (.cons hlisting rfl (.nil _))
  have hends : (Frame.list .success []).EndsExchange := by
    intro push hpush
    cases hpush
  rw [exchange, Endpoint.exchange, hconnect]
  simp only [hsend, Endpoint.awaitReply_of_reads hends hreads]
  rfl

/-- Two calls on a link to the store. -/
def firstCall : Option (Except Failure Value) × Link × Wire :=
  Link.call (.prompt store) { address := "store" } none (Link.command ["SET", "a", "1"]) {}

def secondCall : Option (Except Failure Value) × Link × Wire :=
  Link.call (.prompt store) firstCall.2.1 none (Link.command ["SET", "b", "2"]) firstCall.2.2

/-- On a network on which answers come at once, a call returns the first value that is there. -/
theorem call_prompt {s : Spelled} {rest : Bytes} (hsilent : c.ending = .silent)
    (hin : c.inbox ++ (answer (.sent c.number request.encode :: w.events) c.number).bytes
      = s.bytes ++ rest) :
    c.call (.prompt answer) request w
      = (.value s.value { c with inbox := rest }, w.record (.sent c.number request.encode)) := by
  have hsend : c.send (.prompt answer) request w
      = ({ c with inbox := s.bytes ++ rest }, w.record (.sent c.number request.encode)) := by
    rw [Connection.send, Wire.send, ← hin, hsilent]
    rfl
  rw [Connection.call, hsend]
  exact congrArg (·, _) (Connection.receive_of_spelled rfl)

theorem firstCall_eq : firstCall = (some (.ok push.value),
    { address := "store", connection? := some ⟨0, "store", stored.bytes, .silent⟩ },
    { events := [.sent 0 (Link.command ["SET", "a", "1"]).encode, .opened "store"]
      connections := 1 }) := by
  let c : Connection := ⟨0, "store", [], .silent⟩
  let w : Wire := { events := [.opened "store"], connections := 1 }
  have hcall : c.call (.prompt store) (Link.command ["SET", "a", "1"]) w = _ :=
    call_prompt rfl (bytes_store rfl)
  have hconnect : Link.connect (.prompt store) { address := "store" } none {}
      = (some (.ok c), w) := rfl
  rw [firstCall, Link.call, hconnect]
  simp only [hcall]
  rfl

/-- The second call finds the acknowledgement of the first, and leaves its own refusal behind. -/
theorem secondCall_eq : secondCall.1 = some (.ok stored.value) := by
  let c : Connection := ⟨0, "store", stored.bytes, .silent⟩
  have hcall : ∀ w, c.call (.prompt store) (Link.command ["SET", "b", "2"]) w
      = (.value stored.value _, _) := fun w => call_prompt rfl rfl
  rw [secondCall, firstCall_eq, Link.call, Link.connect]
  simp only [hcall, c]

/-- The exchange has its own reply. The second call has the reply to the first. -/
theorem exchanges_paired_and_calls_paired_iff_pushing : ∃ exchanged e w called l w',
    Endpoint.Run (.prompt server) "server" 500 exchanged e w ∧
      Link.Run (.prompt store) "store" none called l w' ∧
      exchanged.map Endpoint.Exchanged.result = [.ok ⟨.list .success [], some ⟨7, 24, []⟩⟩] ∧
      called.map Link.Called.result = [some (.ok push.value), some (.ok stored.value)] ∧
      (∀ x ∈ exchanged, x.Paired server) ∧ ¬ ∀ x ∈ called, x.Paired store := by
  have hexchange : Endpoint.exchange (.prompt server) { address := "server", timeoutMs := 500 }
      .nilArray (some ⟨7, 24, []⟩) {} = (exchange.1, exchange.2.1, exchange.2.2) := rfl
  have hfirst : Link.call (.prompt store) { address := "store" } none
      (Link.command ["SET", "a", "1"]) {} = (firstCall.1, firstCall.2.1, firstCall.2.2) := rfl
  have hsecond : Link.call (.prompt store) firstCall.2.1 none (Link.command ["SET", "b", "2"])
      firstCall.2.2 = (secondCall.1, secondCall.2.1, secondCall.2.2) := rfl
  have hexchanged := Endpoint.Run.exchange (.start Wire.consistent_empty) hexchange
  have hcalled := (Link.Run.call (.start Wire.consistent_empty) hfirst).call hsecond
  obtain ⟨hpaired, hiff⟩ := exchanges_paired_and_calls_paired_iff
    (Network.relays_prompt "server" server) hexchanged (Network.relays_prompt "store" store) hcalled
  refine ⟨_, _, _, _, _, _, hexchanged, hcalled, ?_, ?_, hpaired, ?_⟩
  · exact congrArg ([·]) exchange_eq
  · rw [List.nil_append, List.singleton_append, List.map_cons, List.map_singleton, firstCall_eq,
      secondCall_eq]
  · rw [hiff]
    intro hunpushed
    obtain ⟨n, older, hsent, hnil⟩ :=
      hunpushed _ (List.mem_append_left _ (List.mem_singleton_self _)) push.value
        (by rw [firstCall_eq])
    rw [firstCall_eq] at hsent hnil
    cases hsent
    cases hnil

end Pushing

end Telemetry
