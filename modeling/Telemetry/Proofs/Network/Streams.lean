import Telemetry.Proofs.Network.Answers
import Mathlib

/-!
# What came in on a connection

A caller that takes one value off a connection behind everything it sends there gets, in the order of
the requests, the values that came in. So what it hears can be told from the history of the wire
alone: the reply to a request is the value with the number of the request. If no such value has come
in, there is nothing to hear as long as the connection is in order, and otherwise never will be.

## Main definitions

* `Network.stream`, `Network.replies`: what came in on a connection, and the values in it.
* `Network.heard`: what is heard of the reply to what was sent last.
* `Connection.HasTaken`: the invariant of a connection off which one value is taken for each request.

## Main statements

* `Connection.HasTaken.call`: a call returns what is heard of its reply.
-/
namespace Telemetry

open Resp (Value)
open Resp.Codec (Drained drain)

variable {net : Network} {n : Nat} {events more : List WireEvent} {w w' : Wire}
  {taken : List Spelled} {c c' : Connection} {v : Value} {rest : Bytes}

/-! ## Histories -/

/-- What came in so far with what comes in next behind it. Nothing does behind an ending, or if there
was nothing that could be sent. -/
def Delivery.followedBy (d next : Delivery) : Delivery :=
  if next.loss? = none ∧ d.ending = .silent then
    { bytes := d.bytes ++ next.bytes, ending := next.ending }
  else { d with loss? := next.loss? }

namespace Network

/-- All that came in on a connection, how it ends, and whether the last thing was lost that was sent
there, given the events newest first. -/
def stream (net : Network) (n : Nat) : List WireEvent → Delivery
  | [] => {}
  | .opened _ :: events | .refused _ :: events => net.stream n events
  | .sent m bytes :: events =>
    if m = n then (net.stream n events).followedBy (net.deliver (.sent m bytes :: events) n)
    else net.stream n events

/-- The whole values that came in on a connection. -/
def replies (net : Network) (n : Nat) (events : List WireEvent) : List Value :=
  (drain .peer (net.stream n events).bytes).values

end Network

/-- What is heard of a reply. -/
inductive Heard where
  | reply (v : Value)
  /-- No reply for now. -/
  | nothing
  /-- No reply, and none can come any more. -/
  | broken

/-- What is heard on a connection of the reply to what was sent last. The first value that came in is
the reply to the first thing that was sent, and so on. -/
def Network.heard (net : Network) (n : Nat) (events : List WireEvent) : Heard :=
  if (net.stream n events).loss?.isSome then .broken
  else
    match (net.replies n events)[(sentOn n events).length - 1]? with
    | some v => .reply v
    | none =>
      if (drain .peer (net.stream n events).bytes).failure?.isNone ∧
          (net.stream n events).ending = .silent then .nothing
      else .broken

/-- What a receipt says of a reply. -/
def Receipt.heard : Receipt → Heard
  | .value v _ => .reply v
  | .nothing => .nothing
  | .failed _ => .broken

theorem Network.stream_sent_self (bytes : Bytes) :
    net.stream n (.sent n bytes :: events)
      = (net.stream n events).followedBy (net.deliver (.sent n bytes :: events) n) := if_pos rfl

/-! ## Other connections -/

/-- What is done elsewhere is no matter to a connection. -/
theorem Untouched.eq_append (h : Untouched n more) (net : Network) (events : List WireEvent) :
    net.stream n (more ++ events) = net.stream n events ∧
      sentOn n (more ++ events) = sentOn n events := by
  induction more with
  | nil => exact ⟨rfl, rfl⟩
  | cons e more ih =>
    obtain ⟨hstream, hsent⟩ := ih h.of_cons
    cases e with
    | opened address | refused address =>
      refine ⟨hstream, ?_⟩
      simp only [List.cons_append, sentOn_opened, sentOn_refused, hsent]
    | sent m bytes =>
      constructor
      · rw [List.cons_append, Network.stream, if_neg h.ne, hstream]
      · rw [List.cons_append, sentOn_sent_of_ne h.ne.symm, hsent]

theorem stream_of_untouched (h : Untouched n events) (net : Network) : net.stream n events = {} := by
  have hall := (h.eq_append net []).1
  rwa [List.append_nil] at hall

/-! ## Taking replies off -/

/-- Spelled values come off in front of the rest. -/
theorem drain_spelled (taken : List Spelled) (rest : Bytes) :
    drain .peer (taken.flatMap Spelled.bytes ++ rest)
      = (drain .peer rest).behind (taken.map Spelled.value) := by
  induction taken with
  | nil => rfl
  | cons s taken ih =>
    have hparse : Value.parse .peer (s.bytes ++ (taken.flatMap Spelled.bytes ++ rest))
        = .value s.value (taken.flatMap Spelled.bytes ++ rest) :=
      Value.parse_eq_value_iff.mpr ⟨s.bytes, s.spells, rfl⟩
    rw [List.flatMap_cons, List.append_assoc, Resp.Codec.drain_of_value hparse, ih]
    simp [Drained.behind]

namespace Connection

/-- Whether some values are all that was taken off a connection: one for everything that was sent, and
the inbox is what came in behind them. -/
structure HasTaken (net : Network) (events : List WireEvent) (taken : List Spelled)
    (c : Connection) : Prop where
  bytes : (net.stream c.number events).bytes = taken.flatMap Spelled.bytes ++ c.inbox
  ending : (net.stream c.number events).ending = c.ending
  length : taken.length = (sentOn c.number events).length

theorem HasTaken.append (hc : c.HasTaken net events taken) (h : Untouched c.number more) :
    c.HasTaken net (more ++ events) taken := by
  obtain ⟨hstream, hsent⟩ := h.eq_append net events
  constructor
  · rw [hstream, hc.bytes]
  · rw [hstream, hc.ending]
  · rw [hsent, hc.length]

theorem HasTaken.replies_eq (hc : c.HasTaken net events taken) :
    net.replies c.number events = taken.map Spelled.value ++ (drain .peer c.inbox).values := by
  rw [Network.replies, hc.bytes, drain_spelled]
  rfl

/-- Nothing was taken off a new connection. -/
theorem hasTaken_nil {address : String} (h : sentOn n events = []) :
    HasTaken net events [] { number := n, address := address } := by
  have hstream := stream_of_untouched (untouched_of_sentOn h) net
  constructor
  · rw [hstream]
    rfl
  · rw [hstream]
  · rw [h]
    rfl

/-- What a receipt says can be told from what came in on the connection. -/
theorem receive_heard {stream : Delivery}
    (hbytes : stream.bytes = taken.flatMap Spelled.bytes ++ c.inbox)
    (hending : stream.ending = c.ending) :
    c.receive.heard =
      match (drain .peer stream.bytes).values[taken.length]? with
      | some v => .reply v
      | none =>
        if (drain .peer stream.bytes).failure?.isNone ∧ stream.ending = .silent then .nothing
        else .broken := by
  rw [hbytes, drain_spelled, hending, receive]
  simp only [Drained.behind, List.length_map, List.getElem?_append_right, le_refl, Nat.sub_self]
  cases hdecode : Resp.Codec.decode .peer c.inbox with
  | error failure => simp [Resp.Codec.drain_of_error hdecode, Receipt.heard]
  | ok found =>
    cases found with
    | some p =>
      simp [Resp.Codec.drain_of_value (Resp.Codec.parse_of_decode hdecode), Drained.behind,
        Receipt.heard]
    | none =>
      cases hend : c.ending with
      | silent => simp [Resp.Codec.drain_of_none hdecode, Receipt.heard]
      | failed detail => simp [Resp.Codec.drain_of_none hdecode, Receipt.heard]
      | closed =>
        by_cases hempty : c.inbox.isEmpty <;>
          simp [Resp.Codec.drain_of_none hdecode, Receipt.heard, hempty]

/-- What has broken says so. -/
theorem receive_of_lost (c : Connection) (detail : String) :
    ∃ failure, ({ c with inbox := [], ending := .failed detail } : Connection).receive
      = .failed failure := by
  have hdecode : Resp.Codec.decode .peer [] = .ok none :=
    Resp.Codec.decode_of_incomplete Value.parseWithin_nil (Nat.zero_le _)
  refine ⟨.transport (c.address ++ ": " ++ detail), ?_⟩
  rw [receive, hdecode]

/-- What came in is what was taken off and what is in the inbox, also behind another send, or else
the send has broken the connection. -/
theorem HasTaken.send (hc : c.HasTaken net w.events taken) (v : Value) {stream : Delivery}
    (hstream : net.stream c.number (.sent c.number v.encode :: w.events) = stream) :
    (stream.loss? = none ∧ stream.ending = (c.send net v w).1.ending ∧
        stream.bytes = taken.flatMap Spelled.bytes ++ (c.send net v w).1.inbox) ∨
      (stream.loss?.isSome ∧ ∃ failure, (c.send net v w).1.receive = .failed failure) := by
  rw [Network.stream_sent_self, Delivery.followedBy] at hstream
  rcases send_cases net c v w rfl with ⟨hloss, hending, hsend⟩ | ⟨hloss, hending, hsend⟩ |
    ⟨detail, hloss, hsend⟩
  · left
    rw [hc.ending, if_pos ⟨hloss, hending⟩] at hstream
    rw [hsend, ← hstream, hc.bytes, List.append_assoc]
    exact ⟨rfl, rfl, rfl⟩
  · left
    rw [hc.ending, if_neg (fun h => hending h.2)] at hstream
    rw [hsend, ← hstream]
    exact ⟨hloss, rfl, hc.bytes⟩
  · right
    rw [if_neg (fun h => by rw [hloss] at h; cases h.1)] at hstream
    rw [hsend, ← hstream]
    exact ⟨by simp [hloss], receive_of_lost c detail⟩

/-- A call returns what is heard of its reply, and a value that it returns it has taken off. -/
theorem HasTaken.call (hc : c.HasTaken net w.events taken) {receipt : Receipt}
    (h : c.call net v w = (receipt, w')) :
    w' = w.record (.sent c.number v.encode) ∧
      net.heard c.number w'.events = receipt.heard ∧
      ∀ u c', receipt = .value u c' → ∃ s : Spelled, s.value = u ∧ c'.number = c.number ∧
        c'.HasTaken net w'.events (taken ++ [s]) := by
  have hreceipt : (c.send net v w).1.receive = receipt := congrArg Prod.fst h
  have hwire : w' = w.record (.sent c.number v.encode) := by
    rw [← wire_send net]
    exact (congrArg Prod.snd h).symm
  have hnumber := (send_eq net c v w).1
  have hsent : (sentOn c.number (.sent c.number v.encode :: w.events)).length
      = taken.length + 1 := by
    rw [sentOn_sent_self, List.length_append, ← hc.length]
    rfl
  rw [hwire, Wire.record]
  refine ⟨rfl, ?_⟩
  rcases hc.send v rfl with ⟨hloss, hending, hbytes⟩ | ⟨hloss, failure, hfailed⟩
  · constructor
    · have hheard := receive_heard hbytes hending
      rw [Network.heard, hloss, if_neg (by simp), hsent, Nat.add_sub_cancel, ← hreceipt, hheard]
      rfl
    · rintro u c' rfl
      obtain ⟨used, hspells, hinbox⟩ := Value.parse_eq_value_iff.mp (parse_of_receive hreceipt)
      have hc' := eq_of_receive hreceipt
      have hsame : c'.number = c.number := by rw [hc', ← hnumber]
      refine ⟨⟨used, u, hspells⟩, rfl, hsame, ?_, ?_, ?_⟩
      · rw [hsame, hbytes, hinbox, List.flatMap_append]
        simp
      · rw [hsame, hending, hc']
      · rw [hsame, hsent, List.length_append]
        rfl
  · rw [hfailed] at hreceipt
    rw [← hreceipt]
    constructor
    · rw [Network.heard, if_pos hloss]
      rfl
    · intro u c' hvalue
      cases hvalue

end Connection

end Telemetry
