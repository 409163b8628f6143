import Telemetry.Network.Link
import Telemetry.Proofs.Network.Streams
import Mathlib

/-!
# Databases of a store

A link to a store with several databases selects one on every connection before it sends anything
else, and uses no connection on which the selection was not acknowledged. Whether it still has to do
so is written down nowhere: it has selected the database exactly if it has kept a connection. So a
connection may only be kept on which this is done, and none on which something went wrong.

## Main definitions

* `SelectsFirst`: whether a database is selected on a connection before anything else is sent.
* `Connection.Selected`: the invariant of a connection that is kept.
* `Course`: what may be relied on in what a link does.
* `Link.Ends`: how a call on a link ends.

## Main statements

* `Link.call_ends`: a call keeps a connection only if it got its reply there.
-/
namespace Telemetry

open Resp (Value)

variable {net : Network} {db n : Nat} {events more older : List WireEvent} {bytes : Bytes}
  {w w' w₁ : Wire} {c : Connection} {v : Value} {receipt : Receipt}

/-! ## Commands and their replies -/

/-- What is sent to select a database. -/
def selection (db : Nat) : Bytes := (Link.command ["SELECT", toString db]).encode

/-- Whether a value is a command that changes what is stored. -/
def IsStoreCommand (v : Value) : Prop :=
  ∃ name ∈ ["SET", "DEL", "MSET"], ∃ args, v = .array (.text name :: args)

/-- Whether a reply acknowledges a command. -/
def IsAcknowledgement (v : Value) : Prop := (∃ text, v = .simple text) ∨ ∃ k, v = .integer k

theorem acknowledged_cases (v : Value) :
    (IsAcknowledgement v ∧ acknowledged v = .ok ()) ∨
      (¬ IsAcknowledgement v ∧ ∃ failure, acknowledged v = .error failure) := by
  cases v with
  | simple text => exact .inl ⟨.inl ⟨text, rfl⟩, rfl⟩
  | integer k => exact .inl ⟨.inr ⟨k, rfl⟩, rfl⟩
  | error text | bulk data | nilBulk | array items | nilArray =>
    exact .inr ⟨by simp [IsAcknowledgement], _, rfl⟩

/-- The written form of an array tells the written forms of its items. -/
theorem flatMap_encode_eq {items items' : List Value}
    (h : (Value.array items).encode = (Value.array items').encode) :
    items.flatMap Value.encode = items'.flatMap Value.encode := by
  have hline : ∀ items : List Value, Value.line? (Value.array items).encode.tail
      = some (Value.decimal items.length, items.flatMap Value.encode) := by
    intro items
    have hcr : 13 ∉ Value.decimalInt (items.length : Int) :=
      Bytes.cr_notMem_ofText.mpr (IntegerRange.isOneLine_toString _)
    rw [Value.encode, Value.line?_eq_some_iff]
    exact ⟨hcr, rfl⟩
  have hsame := hline items
  rw [h, hline items'] at hsame
  exact (Prod.mk.inj (Option.some.inj hsame)).2.symm

/-- The names of the other commands are shorter. -/
theorem IsStoreCommand.encode_ne (h : IsStoreCommand v) (db : Nat) : v.encode ≠ selection db := by
  obtain ⟨name, hname, args, rfl⟩ := h
  intro heq
  have hlength : (Bytes.ofText name).length = 3 ∨ (Bytes.ofText name).length = 4 := by
    fin_cases hname
    · exact .inl (by decide +kernel)
    · exact .inl (by decide +kernel)
    · exact .inr (by decide +kernel)
  have hthree : Value.decimal 3 = [51] := by decide +kernel
  have hfour : Value.decimal 4 = [52] := by decide +kernel
  have hsix : Value.decimal (Bytes.ofText "SELECT").length = [54] := by decide +kernel
  have hitems := flatMap_encode_eq heq
  rw [List.map_cons, List.flatMap_cons, List.flatMap_cons, Value.text, Value.text, Value.encode,
    Value.encode, hsix] at hitems
  rcases hlength with hlength | hlength
  · rw [hlength, hthree] at hitems
    simp at hitems
  · rw [hlength, hfour] at hitems
    simp at hitems

/-! ## Selection first -/

/-- Whether a database is selected on a connection before anything else is sent there, nothing is
sent there then but commands, and every one of them behind an acknowledgement of the selection. -/
structure SelectsFirst (net : Network) (db n : Nat) (events : List WireEvent) : Prop where
  commands : ∃ commands : List Value, sentOn n events = selection db :: commands.map Value.encode ∧
    ∀ v ∈ commands, IsStoreCommand v
  acknowledged : ∀ bytes older, .sent n bytes :: older <:+ events → sentOn n older ≠ [] →
    ∃ v, (net.replies n older).head? = some v ∧ IsAcknowledgement v

namespace SelectsFirst

/-- The database is selected once. -/
theorem count_selection (h : SelectsFirst net db n events) :
    (sentOn n events).count (selection db) = 1 := by
  obtain ⟨commands, hsent, hcommands⟩ := h.commands
  have hnone : selection db ∉ commands.map Value.encode := by
    intro hmem
    obtain ⟨v, hv, heq⟩ := List.mem_map.mp hmem
    exact (hcommands v hv).encode_ne db heq
  rw [hsent, List.count_cons_self, List.count_eq_zero_of_not_mem hnone]

theorem sentOn_ne_nil (h : SelectsFirst net db n events) : sentOn n events ≠ [] := by
  obtain ⟨commands, hsent, -⟩ := h.commands
  rw [hsent]
  exact List.cons_ne_nil _ _

theorem suffix_of_untouched (hmore : Untouched n more)
    (h : .sent n bytes :: older <:+ more ++ events) : .sent n bytes :: older <:+ events := by
  induction more with
  | nil => exact h
  | cons e more ih =>
    rcases List.suffix_cons_iff.mp h with hfirst | hlater
    · cases hfirst
      exact absurd rfl hmore.ne
    · exact ih hmore.of_cons hlater

/-- What is done elsewhere is no matter. -/
theorem append (h : SelectsFirst net db n events) (hmore : Untouched n more) :
    SelectsFirst net db n (more ++ events) where
  commands := by
    rw [(hmore.eq_append net events).2]
    exact h.commands
  acknowledged := by
    intro bytes older hsuffix
    exact h.acknowledged bytes older (suffix_of_untouched hmore hsuffix)

/-- Nothing was sent before the selection. -/
theorem start (h : sentOn n events = []) (db : Nat) :
    SelectsFirst net db n (.sent n (selection db) :: events) where
  commands := ⟨[], by rw [sentOn_sent_self, h]; rfl, by simp⟩
  acknowledged := by
    intro bytes older hsuffix hsent
    rcases List.suffix_cons_iff.mp hsuffix with hfirst | hlater
    · cases hfirst
      exact absurd h hsent
    · exact absurd (hlater.subset List.mem_cons_self) (untouched_of_sentOn h bytes)

/-- A command may be sent once the selection is acknowledged. -/
theorem command (h : SelectsFirst net db n events) (hv : IsStoreCommand v) {u : Value}
    (hreply : (net.replies n events).head? = some u) (hu : IsAcknowledgement u) :
    SelectsFirst net db n (.sent n v.encode :: events) where
  commands := by
    obtain ⟨commands, hsent, hcommands⟩ := h.commands
    refine ⟨commands ++ [v], ?_, ?_⟩
    · rw [sentOn_sent_self, hsent, List.map_append]
      rfl
    · rw [List.forall_mem_append]
      exact ⟨hcommands, by simpa using hv⟩
  acknowledged := by
    intro bytes older hsuffix hsent
    rcases List.suffix_cons_iff.mp hsuffix with hfirst | hlater
    · cases hfirst
      exact ⟨u, hreply, hu⟩
    · exact h.acknowledged bytes older hlater hsent

end SelectsFirst

/-! ## Steps on the wire -/

namespace Wire

/-- The wire with one more connection on which a database was asked for. -/
def asking (w : Wire) (address : String) (db : Nat) : Wire :=
  (w.opening address).record (.sent w.connections (selection db))

theorem Consistent.asking (h : w.Consistent) (address : String) (db : Nat) :
    (w.asking address db).Consistent :=
  (h.opening address).sending (Nat.lt_succ_self _) _

theorem Consistent.selectsFirst_asking (h : w.Consistent) (net : Network) (address : String)
    (db : Nat) : SelectsFirst net db w.connections (w.asking address db).events :=
  .start (h.sentOn_opening address) db

end Wire

namespace Connection

theorem open?_cases (net : Network) (address : String) (w : Wire) :
    (∃ failure, open? net address w = (.error failure, w.record (.refused address))) ∨
      open? net address w = (.ok { number := w.connections, address := address },
        w.opening address) := by
  rw [open?, Wire.connect]
  cases net.refusal? w.events address with
  | some detail => exact .inl ⟨_, rfl⟩
  | none => exact .inr rfl

/-- Whether a database was selected on a connection. -/
structure Selected (net : Network) (db : Nat) (events : List WireEvent) (c : Connection) : Prop where
  first : SelectsFirst net db c.number events
  taken : ∃ s taken, c.HasTaken net events (s :: taken) ∧ IsAcknowledgement s.value

theorem Selected.append (hc : c.Selected net db events) (hmore : Untouched c.number more) :
    c.Selected net db (more ++ events) := by
  obtain ⟨s, taken, htaken, hs⟩ := hc.taken
  exact ⟨hc.first.append hmore, s, taken, htaken.append hmore, hs⟩

theorem Selected.exists_acknowledgement (hc : c.Selected net db events) :
    ∃ v, (net.replies c.number events).head? = some v ∧ IsAcknowledgement v := by
  obtain ⟨s, taken, htaken, hs⟩ := hc.taken
  exact ⟨s.value, by rw [htaken.replies_eq]; rfl, hs⟩

/-- A command may be sent on such a connection, and leaves it so if its reply comes in. -/
theorem Selected.call (hc : c.Selected net db w.events) (hv : IsStoreCommand v)
    (h : c.call net v w = (receipt, w')) :
    w' = w.record (.sent c.number v.encode) ∧ net.heard c.number w'.events = receipt.heard ∧
      SelectsFirst net db c.number w'.events ∧
      ∀ u c', receipt = .value u c' → c'.number = c.number ∧ c'.Selected net db w'.events := by
  obtain ⟨s, taken, htaken, hs⟩ := hc.taken
  obtain ⟨u, hreply, hu⟩ := hc.exists_acknowledgement
  obtain ⟨hwire, hheard, hvalue⟩ := htaken.call h
  have hfirst : SelectsFirst net db c.number w'.events := by
    rw [hwire]
    exact hc.first.command hv hreply hu
  refine ⟨hwire, hheard, hfirst, ?_⟩
  intro u c' hreceipt
  obtain ⟨t, -, hnumber, htaken'⟩ := hvalue u c' hreceipt
  refine ⟨hnumber, ?_, s, taken ++ [t], htaken', hs⟩
  rwa [hnumber]

end Connection

/-! ## Links -/

namespace Link

variable {l l' : Link}

/-- The selection on a new connection has no answer, or fails, or is acknowledged. -/
theorem select_cases {address : String} {r : Option (Except Failure Connection)}
    (hw : w.Consistent)
    (h : select net (some db) { number := w.connections, address := address } (w.opening address)
      = (r, w₁)) :
    w₁ = w.asking address db ∧
      ((r = none ∧ net.heard w.connections w₁.events = .nothing) ∨
        (∃ failure, r = some (.error failure) ∧
          (net.heard w.connections w₁.events = .broken ∨
            ∃ v, net.heard w.connections w₁.events = .reply v ∧ ¬ IsAcknowledgement v)) ∨
        ∃ c, r = some (.ok c) ∧ c.number = w.connections ∧ c.Selected net db w₁.events) := by
  let new : Connection := { number := w.connections, address := address }
  have hnew : new.HasTaken net (w.opening address).events [] :=
    Connection.hasTaken_nil (hw.sentOn_opening address)
  rcases hcall : new.call net (command ["SELECT", toString db]) (w.opening address)
    with ⟨receipt, w₂⟩
  obtain ⟨hwire, hheard, hvalue⟩ := hnew.call hcall
  rw [select] at h
  rw [hcall] at h
  cases receipt with
  | nothing =>
    cases h
    exact ⟨hwire, .inl ⟨rfl, hheard⟩⟩
  | failed failure =>
    cases h
    exact ⟨hwire, .inr (.inl ⟨failure, rfl, .inl hheard⟩)⟩
  | value v c =>
    cases h
    refine ⟨hwire, .inr ?_⟩
    rcases acknowledged_cases v with ⟨hack, heq⟩ | ⟨hrefused, failure, heq⟩
    · right
      obtain ⟨s, rfl, hnumber, htaken⟩ := hvalue v c rfl
      refine ⟨c, by rw [heq]; rfl, hnumber, ?_, s, [], htaken, hack⟩
      rw [hnumber, hwire]
      exact hw.selectsFirst_asking net address db
    · left
      exact ⟨failure, by rw [heq]; rfl, .inr ⟨v, hheard, hrefused⟩⟩

end Link

/-! ## What a call does -/

/-- Whether a connection was made between two moments, or is one that was kept. -/
def IsOwn (kept : Option Connection) (w w' : Wire) (n : Nat) : Prop :=
  (w.connections ≤ n ∧ n < w'.connections) ∨ ∃ c, kept = some c ∧ c.number = n

/-- What one may rely on in what was done between two moments by the owner of a connection, or of
none: it used its own connections only, and on all of them the database was selected first. -/
structure Course (net : Network) (db : Nat) (kept : Option Connection) (w : Wire)
    (did : List WireEvent) (w' : Wire) : Prop where
  consistent : w'.Consistent
  events : w'.events = did ++ w.events
  connections : w.connections ≤ w'.connections
  sent : ∀ n bytes, .sent n bytes ∈ did → IsOwn kept w w' n
  selects : ∀ n, IsOwn kept w w' n → SelectsFirst net db n w'.events

namespace Course

variable {kept : Option Connection} {did : List WireEvent}

/-- Nothing was done. -/
theorem refl (hw : w.Consistent) (hkept : ∀ c, kept = some c → c.Selected net db w.events) :
    Course net db kept w [] w where
  consistent := hw
  events := rfl
  connections := le_rfl
  sent := by simp
  selects := by
    rintro n (⟨hle, hlt⟩ | ⟨c, hc, rfl⟩)
    · omega
    · exact (hkept c hc).first

/-- No connection was made. -/
theorem refused (hw : w.Consistent) (address : String) :
    Course net db none w [.refused address] (w.record (.refused address)) where
  consistent := hw.refused address
  events := rfl
  connections := le_rfl
  sent := by simp
  selects := by
    rintro n (⟨hle, hlt⟩ | ⟨c, hc, rfl⟩)
    · exact absurd hlt (not_lt.mpr hle)
    · cases hc

/-- A connection was made, and the database was asked for there. -/
theorem asking (hw : w.Consistent) (address : String) :
    Course net db none w [.sent w.connections (selection db), .opened address]
      (w.asking address db) where
  consistent := hw.asking address db
  events := rfl
  connections := Nat.le_succ _
  sent := by
    intro n bytes hmem
    have hn : n = w.connections ∧ bytes = selection db := by simpa using hmem
    exact .inl ⟨hn.1.ge, hn.1 ▸ Nat.lt_succ_self _⟩
  selects := by
    rintro n (⟨hle, hlt⟩ | ⟨c, hc, rfl⟩)
    · have hn : n = w.connections := le_antisymm (Nat.lt_succ_iff.mp hlt) hle
      rw [hn]
      exact hw.selectsFirst_asking net address db
    · cases hc

/-- A command was sent next, on a connection on which the database was selected. -/
theorem command (h : Course net db kept w did w₁) (hown : IsOwn kept w w₁ c.number)
    (hfirst : SelectsFirst net db c.number (w₁.record (.sent c.number bytes)).events) :
    Course net db kept w (.sent c.number bytes :: did) (w₁.record (.sent c.number bytes)) where
  consistent := h.consistent.sending (h.consistent.lt_of_sentOn (h.selects _ hown).sentOn_ne_nil) _
  events := congrArg (_ :: ·) h.events
  connections := h.connections
  sent := by
    intro n bytes' hmem
    rcases List.mem_cons.mp hmem with hlast | hbefore
    · cases hlast
      exact hown
    · exact h.sent n bytes' hbefore
  selects := by
    intro n hn
    by_cases hsame : n = c.number
    · rw [hsame]
      exact hfirst
    · have helsewhere : Untouched n [.sent c.number bytes] := by
        intro bytes' hmem
        cases List.mem_singleton.mp hmem
        exact hsame rfl
      exact (h.selects n hn).append helsewhere

end Course

namespace Link

variable {l l' : Link} {request : Value} {did : List WireEvent}

/-- How a call on a link ends: by what was done in it, the last first, what the call returns and
which connection is kept. -/
inductive Ends (net : Network) (db : Nat) (request : Value) (events : List WireEvent) :
    List WireEvent → Option (Except Failure Value) → Option Connection → Prop where
  | refused (address : String) (failure : Failure) :
      Ends net db request events [.refused address] (some (.error failure)) none
  | waiting {n : Nat} {bytes : Bytes} {did : List WireEvent}
      (heard : net.heard n events = .nothing) :
      Ends net db request events (.sent n bytes :: did) none none
  | unselected {n : Nat} {did : List WireEvent} (failure : Failure)
      (heard : net.heard n events = .broken ∨
        ∃ v, net.heard n events = .reply v ∧ ¬ IsAcknowledgement v) :
      Ends net db request events (.sent n (selection db) :: did) (some (.error failure)) none
  | broken {n : Nat} {did : List WireEvent} (failure : Failure)
      (heard : net.heard n events = .broken) :
      Ends net db request events (.sent n request.encode :: did) (some (.error failure)) none
  | answered {c : Connection} {v : Value} {did : List WireEvent}
      (heard : net.heard c.number events = .reply v) (selected : c.Selected net db events) :
      Ends net db request events (.sent c.number request.encode :: did) (some (.ok v)) (some c)

/-- A link uses the connection that it has kept, or it makes one and selects the database there. If
it does not come to that, the call ends here. -/
theorem connect_course (request : Value) {r : Option (Except Failure Connection)}
    (hw : w.Consistent) (hkept : ∀ c, l.connection? = some c → c.Selected net db w.events)
    (h : l.connect net (some db) w = (r, w₁)) :
    ∃ did, Course net db l.connection? w did w₁ ∧
      ((r = none ∧ Ends net db request w₁.events did none none) ∨
        (∃ failure, r = some (.error failure) ∧
          Ends net db request w₁.events did (some (.error failure)) none) ∨
        ∃ c, r = some (.ok c) ∧ IsOwn l.connection? w w₁ c.number ∧
          c.Selected net db w₁.events) := by
  rw [connect] at h
  cases hc : l.connection? with
  | some c =>
    rw [hc] at h hkept
    cases h
    refine ⟨[], .refl hw hkept, ?_⟩
    exact .inr (.inr ⟨c, rfl, .inr ⟨c, rfl, rfl⟩, hkept c rfl⟩)
  | none =>
    rw [hc] at h
    rcases Connection.open?_cases net l.address w with ⟨failure, hopen⟩ | hopen
    · rw [hopen] at h
      cases h
      refine ⟨_, .refused hw l.address, ?_⟩
      exact .inr (.inl ⟨failure, rfl, .refused _ _⟩)
    · rw [hopen] at h
      obtain ⟨rfl, hcases⟩ := select_cases hw h
      refine ⟨_, .asking hw l.address, ?_⟩
      rcases hcases with ⟨rfl, hheard⟩ | ⟨failure, rfl, hheard⟩ | ⟨c, rfl, hnumber, hselected⟩
      · exact .inl ⟨rfl, .waiting hheard⟩
      · exact .inr (.inl ⟨failure, rfl, .unselected failure hheard⟩)
      · have hown : IsOwn none w (w.asking l.address db) c.number :=
          .inl ⟨hnumber.ge, hnumber ▸ Nat.lt_succ_self _⟩
        exact .inr (.inr ⟨c, rfl, hown, hselected⟩)

/-- A call on a link goes wrong before its command is sent, or sends it on a connection on which the
database was selected. -/
theorem call_ends {r : Option (Except Failure Value)} (hw : w.Consistent)
    (hkept : ∀ c, l.connection? = some c → c.Selected net db w.events)
    (hrequest : IsStoreCommand request) (h : l.call net (some db) request w = (r, l', w')) :
    ∃ did, Course net db l.connection? w did w' ∧
      Ends net db request w'.events did r l'.connection? := by
  rcases hconnect : l.connect net (some db) w with ⟨connected, w₁⟩
  obtain ⟨did, hcourse, hcases⟩ := connect_course request hw hkept hconnect
  rw [call, hconnect] at h
  rcases hcases with ⟨rfl, hends⟩ | ⟨failure, rfl, hends⟩ | ⟨c, rfl, hown, hc⟩
  · cases h
    exact ⟨did, hcourse, hends⟩
  · cases h
    exact ⟨did, hcourse, hends⟩
  · rcases hcall : c.call net request w₁ with ⟨receipt, w₂⟩
    obtain ⟨rfl, hheard, hfirst, hvalue⟩ := hc.call hrequest hcall
    simp only [hcall] at h
    have hcourse' := hcourse.command hown hfirst
    cases receipt with
    | nothing =>
      cases h
      exact ⟨_, hcourse', .waiting hheard⟩
    | failed failure =>
      cases h
      exact ⟨_, hcourse', .broken failure hheard⟩
    | value v c' =>
      cases h
      obtain ⟨hnumber, hselected⟩ := hvalue v c' rfl
      rw [← hnumber] at hheard hcourse' hselected ⊢
      exact ⟨_, hcourse', .answered hheard hselected⟩

end Link

end Telemetry
