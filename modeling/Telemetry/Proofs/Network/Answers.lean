import Telemetry.Proofs.Client.Received

/-!
# A peer that answers what it is asked

A peer answers every request by some pushes and one reply, or it breaks off with something of which
no sense can be made. It may be late with any part of an answer, or never get to it: what came in on
a connection is a beginning of the answers to everything that was sent there. Between two calls a
connection is settled if it has the whole of these answers behind it, so that what comes in next
belongs to the next request.

## Main definitions

* `Answer`: what a peer has to say to one request.
* `Network.Relays`: a network that brings in the answers of a peer.
* `Connection.Settled`: the invariant of a connection between two calls.

## Main statements

* `Connection.inbox_send_of_settled`: on a settled connection only the answer to a request comes in.
* `Connection.settled_of_send`: a call that takes all of the answer leaves the connection settled.
-/
namespace Telemetry

open Resp (Value)

/-! ## Answers -/

/-- A value as it is written on a wire. -/
structure Spelled where
  bytes : Bytes
  value : Value
  spells : Value.Spells .peer Resp.Limits.peer.maxDepth value bytes

theorem spells_encode_of_admits {v : Value} (h : Resp.Limits.peer.Admits v) :
    Value.Spells .peer Resp.Limits.peer.maxDepth v v.encode :=
  Value.spells_encode h (Value.fits_of_admits (by decide) (by decide) h)

/-- A value in its written form. -/
def Spelled.written (v : Value) (h : Resp.Limits.peer.Admits v) : Spelled :=
  ⟨v.encode, v, spells_encode_of_admits h⟩

/-- Whether a value is a push. -/
def IsPush (v : Value) : Prop := ∃ push, Frame.ofValue v = .ok (.bulk push)

/-- How an answer ends. -/
inductive Conclusion (legible : Value → Prop) where
  | reply (s : Spelled) (noPush : ¬ IsPush s.value)
  /-- Bytes off which no value comes that makes sense to the other side. -/
  | debris (bytes : Bytes)
    (illegible : ∀ v rest, Value.parse .peer bytes = .value v rest → ¬ legible v)

/-- What a peer has to say to one request, if the other side makes sense of some values. -/
structure Answer (legible : Value → Prop) where
  pushes : List Spelled
  conclusion : Conclusion legible
  arePushes : ∀ s ∈ pushes, IsPush s.value

variable {legible : Value → Prop} {net : Network} {address : String} {w w' : Wire}
  {events more : List WireEvent}
  {answer : List WireEvent → Nat → Answer legible} {n : Nat} {s : Spelled} {v : Value}
  {rest tail : Bytes}

namespace Answer

/-- The reply, if there is one. -/
def reply? (a : Answer legible) : Option Spelled :=
  match a.conclusion with
  | .reply s _ => some s
  | .debris _ _ => none

/-- What stands in place of a reply. -/
def debris (a : Answer legible) : Bytes :=
  match a.conclusion with
  | .reply _ _ => []
  | .debris bytes _ => bytes

/-- The values of an answer, the pushes before the reply. -/
def spelled (a : Answer legible) : List Spelled := a.pushes ++ a.reply?.toList

/-- An answer as it is written. -/
def bytes (a : Answer legible) : Bytes := a.spelled.flatMap Spelled.bytes ++ a.debris

theorem illegible (a : Answer legible) (h : Value.parse .peer a.debris = .value v rest) :
    ¬ legible v := by
  rw [debris] at h
  cases hc : a.conclusion with
  | reply s noPush =>
    rw [hc] at h
    have hlt := Value.length_lt_of_parse h
    cases hlt
  | debris bytes illegible =>
    rw [hc] at h
    exact illegible v rest h

theorem not_isPush_of_reply? {a : Answer legible} (h : a.reply? = some s) : ¬ IsPush s.value := by
  rw [reply?] at h
  cases hc : a.conclusion with
  | reply s' noPush =>
    rw [hc] at h
    cases h
    exact noPush
  | debris bytes illegible =>
    rw [hc] at h
    cases h

theorem debris_eq_nil {a : Answer legible} (h : a.reply? = some s) : a.debris = [] := by
  rw [reply?] at h
  rw [debris]
  cases hc : a.conclusion with
  | reply s' noPush => rfl
  | debris bytes illegible =>
    rw [hc] at h
    cases h

end Answer

/-! ## Taking values off -/

namespace Connection

variable {c c' : Connection}

theorem parse_of_receive (h : c.receive = .value v c') :
    Value.parse .peer c.inbox = .value v c'.inbox := by
  rw [receive] at h
  split at h
  · cases h
  · rename_i hdecode
    cases h
    exact Resp.Codec.parse_of_decode hdecode
  · split at h
    · cases h
    · cases h
    · split at h <;> cases h

theorem receive_of_spelled (h : c.inbox = s.bytes ++ rest) :
    c.receive = .value s.value { c with inbox := rest } := by
  apply receive_of_value
  rw [h]
  exact Value.parse_eq_value_iff.mpr ⟨s.bytes, s.spells, rfl⟩

/-- If what came in is a beginning of a spelled value and more, then that value comes off first. -/
theorem eq_of_receive_of_prefix (hin : c.inbox <+: s.bytes ++ tail) (h : c.receive = .value v c') :
    v = s.value ∧ c.inbox = s.bytes ++ c'.inbox ∧ c'.inbox <+: tail := by
  obtain ⟨missing, hmissing⟩ := hin
  have hfirst := Value.parse_append_of_value (parse_of_receive h) missing
  have hspelled : Value.parse .peer (s.bytes ++ tail) = .value s.value tail :=
    Value.parse_eq_value_iff.mpr ⟨s.bytes, s.spells, rfl⟩
  rw [hmissing, hspelled] at hfirst
  cases hfirst
  refine ⟨rfl, ?_, List.prefix_append _ _⟩
  rw [← List.append_assoc] at hmissing
  exact List.append_cancel_right hmissing

/-- If what came in is a beginning of debris, then nothing legible comes off. -/
theorem not_legible_of_receive {a : Answer legible} (hin : c.inbox <+: a.debris)
    (h : c.receive = .value v c') : ¬ legible v := by
  obtain ⟨missing, hmissing⟩ := hin
  have hparse := Value.parse_append_of_value (parse_of_receive h) missing
  rw [hmissing] at hparse
  exact a.illegible hparse

/-- The first legible value that comes off an answer is its first push, or else it is the reply and
nothing is left. -/
theorem receive_answer {a : Answer legible} (hin : c.inbox <+: a.bytes)
    (h : c.receive = .value v c') (hv : legible v) :
    (a.pushes ≠ [] ∧ IsPush v) ∨
      (a.pushes = [] ∧ (∃ s, a.reply? = some s ∧ s.value = v) ∧ c.inbox = a.bytes ∧
        c'.inbox = []) := by
  cases hp : a.pushes with
  | cons s pushes =>
    left
    have hin' : c.inbox <+: s.bytes ++ ((pushes ++ a.reply?.toList).flatMap Spelled.bytes
        ++ a.debris) := by
      simpa [Answer.bytes, Answer.spelled, hp] using hin
    obtain ⟨rfl, -, -⟩ := eq_of_receive_of_prefix hin' h
    exact ⟨List.cons_ne_nil _ _, a.arePushes s (by simp [hp])⟩
  | nil =>
    right
    cases hr : a.reply? with
    | none =>
      have hin' : c.inbox <+: a.debris := by
        simpa [Answer.bytes, Answer.spelled, hp, hr] using hin
      exact absurd hv (not_legible_of_receive hin' h)
    | some s =>
      have hbytes : a.bytes = s.bytes ++ [] := by
        simp [Answer.bytes, Answer.spelled, hp, hr, Answer.debris_eq_nil hr]
      rw [hbytes] at hin ⊢
      obtain ⟨rfl, hinbox, hrest⟩ := eq_of_receive_of_prefix hin h
      have hnil := List.prefix_nil.mp hrest
      exact ⟨rfl, ⟨s, rfl, rfl⟩, by rw [hinbox, hnil], hnil⟩

end Connection

/-! ## Histories -/

/-- The parts that belong to what was sent on a connection, oldest first, given the events newest
first. -/
def along (part : List WireEvent → Bytes) (n : Nat) : List WireEvent → Bytes
  | [] => []
  | .opened _ :: events | .refused _ :: events => along part n events
  | .sent m bytes :: events =>
    if m = n then along part n events ++ part (.sent m bytes :: events) else along part n events

theorem along_sent_self (part : List WireEvent → Bytes) (bytes : Bytes) :
    along part n (.sent n bytes :: events)
      = along part n events ++ part (.sent n bytes :: events) := if_pos rfl

/-- What is done on other connections does not count. -/
theorem along_append (part : List WireEvent → Bytes) (h : Untouched n more) :
    along part n (more ++ events) = along part n events := by
  induction more with
  | nil => rfl
  | cons e more ih =>
    cases e with
    | opened address => exact ih h.of_cons
    | refused address => exact ih h.of_cons
    | sent m bytes => rw [List.cons_append, along, if_neg h.ne, ih h.of_cons]

theorem along_of_sentOn (part : List WireEvent → Bytes) (h : sentOn n events = []) :
    along part n events = [] := by
  have hall : along part n (events ++ []) = along part n [] :=
    along_append part (untouched_of_sentOn h)
  rwa [List.append_nil] at hall

/-- What came in on a connection so far. -/
def Network.incoming (net : Network) (n : Nat) (events : List WireEvent) : Bytes :=
  along (fun events => (net.deliver events n).bytes) n events

/-- The answers of a peer to what was sent on a connection so far. -/
def answersOn (answer : List WireEvent → Nat → Answer legible) (n : Nat)
    (events : List WireEvent) : Bytes :=
  along (fun events => (answer events n).bytes) n events

/-- Whether a network brings in the answers of a peer at an address, each of them at once or in part
or late. -/
def Network.Relays (net : Network) (address : String)
    (answer : List WireEvent → Nat → Answer legible) : Prop :=
  ∀ events n, (openedTo events)[n]? = some address →
    net.incoming n events <+: answersOn answer n events

/-- The network on which all connections are made and answers come at once. -/
def Network.prompt (answer : List WireEvent → Nat → Answer legible) : Network where
  refusal? := fun _ _ => none
  deliver := fun events n => { bytes := (answer events n).bytes }

theorem Network.relays_prompt (address : String)
    (answer : List WireEvent → Nat → Answer legible) : (prompt answer).Relays address answer :=
  fun _ _ _ => List.prefix_refl _

/-! ## Between two calls -/

/-- Whether nothing is done between two moments on a connection, if there is one. -/
structure Wire.LeavesAlone (c? : Option Connection) (w w' : Wire) : Prop where
  consistent : w'.Consistent
  events : ∃ more, w'.events = more ++ w.events ∧
    ∀ c, c? = some c → ∀ bytes, .sent c.number bytes ∉ more

/-- A connection keeps its address. -/
theorem openedTo_append (h : (openedTo events)[n]? = some address) (more : List WireEvent) :
    (openedTo (more ++ events))[n]? = some address := by
  have hopened : openedTo (more ++ events) = openedTo events ++ openedTo more := by
    simp [openedTo]
  rw [hopened, List.getElem?_append_left (List.getElem?_eq_some_iff.mp h).1, h]

/-- Whether a connection has the answers to everything that was sent on it behind it, if there is a
peer at its address that answers. -/
structure Connection.Settled (net : Network) (address : String)
    (answer : List WireEvent → Nat → Answer legible) (w : Wire) (c : Connection) : Prop where
  made : (openedTo w.events)[c.number]? = some address
  inbox : c.inbox = []
  level : c.ending = .silent → net.incoming c.number w.events = answersOn answer c.number w.events

namespace Connection

variable {c c' : Connection}

theorem Settled.leavesAlone (hc : c.Settled net address answer w)
    (h : w.LeavesAlone (some c) w') : c.Settled net address answer w' := by
  obtain ⟨more, hmore, hnone⟩ := h.events
  refine ⟨hmore ▸ openedTo_append hc.made more, hc.inbox, ?_⟩
  intro hending
  rw [Network.incoming, answersOn, hmore, along_append _ (hnone c rfl), along_append _ (hnone c rfl)]
  exact hc.level hending

/-- Whether a connection that is kept for the next call, if there is one, is settled. -/
def KeptSettled (net : Network) (address : String)
    (answer : List WireEvent → Nat → Answer legible) (w : Wire) (c? : Option Connection) : Prop :=
  ∀ c, c? = some c → c.Settled net address answer w

theorem keptSettled_none : KeptSettled net address answer w none := by
  intro c hc
  cases hc

theorem Settled.kept (hc : c.Settled net address answer w) :
    KeptSettled net address answer w (some c) := by
  intro c' hc'
  cases hc'
  exact hc

theorem KeptSettled.leavesAlone {c? : Option Connection}
    (hc : KeptSettled net address answer w c?) (h : w.LeavesAlone c? w') :
    KeptSettled net address answer w' c? := by
  intro c hkept
  rw [hkept] at h
  exact (hc c hkept).leavesAlone h

/-- A new connection is settled. -/
theorem settled_open (hw : w.Consistent) (h : open? net address w = (.ok c, w')) :
    c.Settled net address answer w' ∧ w'.Consistent := by
  rw [open?] at h
  split at h
  · cases h
  · rename_i number w₁ hconnect
    cases h
    obtain ⟨rfl, hopened, hsent, hon⟩ := Wire.connect_ok hw hconnect
    refine ⟨⟨hopened, rfl, ?_⟩, hon.consistent⟩
    intro _
    exact (along_of_sentOn _ hsent).trans (along_of_sentOn _ hsent).symm

theorem consistent_of_open_error {failure : Failure} (hw : w.Consistent)
    (h : open? net address w = (.error failure, w')) : w'.Consistent := by
  rw [open?] at h
  split at h
  · rename_i hconnect
    cases h
    exact (Wire.connect_error (n := 0) hw hconnect).consistent
  · cases h

theorem wire_send (net : Network) (c : Connection) (v : Value) (w : Wire) :
    (c.send net v w).2 = w.record (.sent c.number v.encode) := by
  rw [send]
  simp only [Wire.send]
  split
  · rfl
  · split <;> rfl

theorem events_send (net : Network) (c : Connection) (v : Value) (w : Wire) :
    (c.send net v w).2.events = .sent c.number v.encode :: w.events := by
  rw [wire_send, Wire.record]

theorem Settled.consistent_send (hc : c.Settled net address answer w) (hw : w.Consistent)
    (v : Value) : (c.send net v w).2.Consistent :=
  (onlyOn_send net hw (hw.lt_of_openedTo hc.made) v).consistent

/-- What a send makes of a connection: on one that was open the delivery comes in, and one on which
nothing could be sent has broken. -/
theorem send_cases (net : Network) (c : Connection) (v : Value) (w : Wire) {d : Delivery}
    (hd : net.deliver (.sent c.number v.encode :: w.events) c.number = d) :
    (d.loss? = none ∧ c.ending = .silent ∧
        (c.send net v w).1 = { c with inbox := c.inbox ++ d.bytes, ending := d.ending }) ∨
      (d.loss? = none ∧ c.ending ≠ .silent ∧ (c.send net v w).1 = c) ∨
      ∃ detail, d.loss? = some detail ∧
        (c.send net v w).1 = { c with inbox := [], ending := .failed detail } := by
  rw [send]
  simp only [Wire.send, Wire.record, hd]
  cases hloss : d.loss? with
  | some detail => exact .inr (.inr ⟨detail, rfl, rfl⟩)
  | none =>
    by_cases hending : c.ending = .silent
    · exact .inl ⟨rfl, hending, congrArg Prod.fst (if_pos hending)⟩
    · exact .inr (.inl ⟨rfl, hending, congrArg Prod.fst (if_neg hending)⟩)

/-- On a settled connection nothing comes in but the answer to what is sent. -/
theorem inbox_send_of_settled (hnet : net.Relays address answer) (hc : c.Settled net address answer w)
    (v : Value) :
    (c.send net v w).1.inbox <+: (answer (c.send net v w).2.events c.number).bytes := by
  rw [events_send]
  rcases send_cases net c v w rfl with ⟨-, hending, hsend⟩ | ⟨-, -, hsend⟩ | ⟨detail, -, hsend⟩
  · have hmade : (openedTo (.sent c.number v.encode :: w.events))[c.number]? = some address := by
      rw [openedTo_sent, hc.made]
    have hrelays := hnet _ c.number hmade
    rw [Network.incoming, answersOn, along_sent_self, along_sent_self] at hrelays
    have hlevel := hc.level hending
    rw [Network.incoming, answersOn] at hlevel
    rw [hlevel, List.prefix_append_right_inj] at hrelays
    rw [hsend, hc.inbox]
    exact hrelays
  · rw [hsend, hc.inbox]
    exact List.nil_prefix
  · rw [hsend]
    exact List.nil_prefix

/-- A call that takes all of the answer off leaves the connection settled. -/
theorem settled_of_send (hc : c.Settled net address answer w)
    (hall : (c.send net v w).1.inbox = (answer (c.send net v w).2.events c.number).bytes) :
    Settled net address answer (c.send net v w).2 { (c.send net v w).1 with inbox := [] } := by
  have hnumber := (send_eq net c v w).1
  refine ⟨?_, rfl, ?_⟩
  · rw [hnumber, events_send, openedTo_sent, hc.made]
  · intro hsilent
    rcases send_cases net c v w rfl with ⟨-, hending, hsend⟩ | ⟨-, hended, hsend⟩ | ⟨detail, -, hsend⟩
    · have hlevel := hc.level hending
      rw [Network.incoming, answersOn] at hlevel
      rw [hsend, hc.inbox, List.nil_append, events_send] at hall
      rw [hnumber, events_send, Network.incoming, answersOn, along_sent_self, along_sent_self,
        hlevel, ← hall]
    · rw [hsend] at hsilent
      exact absurd hsilent hended
    · rw [hsend] at hsilent
      cases hsilent

end Connection

end Telemetry
