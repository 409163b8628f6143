import Telemetry.Proofs.Network.Selection
import Telemetry.Reduction.Remote
import Mathlib

/-!
# The database of a sink

A sink whose database has a number never writes to another one. On every connection that it makes it
selects the database first and once, and it sends no command there before this is acknowledged. A
call that fails returns an error, and whatever is sent behind it is sent on connections that are made
later.

## Main definitions

* `RemoteSink.Run`: calls on one sink, one after the other.
* `RemoteSink.Made.Fails`: how a call fails before its command is answered.
* `RemoteSink.Sound`: the invariant of a run.

## Main statements

* `RemoteSink.Run.keeps_to_database`
-/
namespace Telemetry

open Resp (Value)

variable {net : Network} {db n : Nat} {more : List WireEvent} {bytes : Bytes} {w w' : Wire}

namespace RemoteSink

/-- A call on a sink. -/
inductive Call where
  | put (key : String) (value : Bytes)
  | erase (key : String)
  | multiPut (entries : List (String × Bytes))
  | multiErase (keys : List String)

/-- Makes a call. -/
def Call.make (net : Network) (s : RemoteSink) (w : Wire) :
    Call → Option (Except Failure Unit) × RemoteSink × Wire
  | put key value => s.put net key value w
  | erase key => s.erase net key w
  | multiPut entries => s.multiPut net entries w
  | multiErase keys => s.multiErase net keys w

/-- The command of a call, if it has something to send. -/
def Call.words? : Call → Option (List Value)
  | put key value => some [.text "SET", .text key, .bulk value]
  | erase key => some [.text "DEL", .text key]
  | multiPut entries =>
    if entries.isEmpty then none
    else some (.text "MSET" :: entries.flatMap fun (key, value) => [.text key, .bulk value])
  | multiErase keys => if keys.isEmpty then none else some (.text "DEL" :: keys.map Value.text)

theorem Call.isStoreCommand {call : Call} {words : List Value} (h : call.words? = some words) :
    IsStoreCommand (.array words) := by
  cases call with
  | put key value =>
    cases h
    exact ⟨"SET", by simp, _, rfl⟩
  | erase key =>
    cases h
    exact ⟨"DEL", by simp, _, rfl⟩
  | multiPut entries =>
    rw [words?] at h
    split at h
    · cases h
    · cases h
      exact ⟨"MSET", by simp, _, rfl⟩
  | multiErase keys =>
    rw [words?] at h
    split at h
    · cases h
    · cases h
      exact ⟨"DEL", by simp, _, rfl⟩

theorem Call.make_eq (call : Call) (net : Network) (s : RemoteSink) (w : Wire) :
    call.make net s w = match call.words? with
      | none => (some (.ok ()), s, w)
      | some words => s.perform net words w := by
  cases call with
  | put key value | erase key => rfl
  | multiPut entries =>
    rw [make, RemoteSink.multiPut, words?]
    split <;> rfl
  | multiErase keys =>
    rw [make, RemoteSink.multiErase, words?]
    split <;> rfl

/-- A call that was made. -/
structure Made where
  call : Call
  /-- What the call returned, if it returned. -/
  result : Option (Except Failure Unit)
  before : Wire
  after : Wire

namespace Made

/-- Whether a connection was made in a call. -/
def Opened (x : Made) (n : Nat) : Prop := x.before.connections ≤ n ∧ n < x.after.connections

/-- What was done in a call, newest first. -/
def did (x : Made) : List WireEvent :=
  x.after.events.take (x.after.events.length - x.before.events.length)

/-- How a call fails before its command is answered. -/
inductive Fails (net : Network) (db : Nat) (x : Made) : Prop where
  /-- No connection was made. -/
  | refused {address : String} (last : x.did.head? = some (.refused address))
  /-- What was sent last has no reply and cannot have one any more. -/
  | broken {n : Nat} {bytes : Bytes} (last : x.did.head? = some (.sent n bytes))
      (heard : net.heard n x.after.events = .broken)
  /-- The selection of the database was not acknowledged. -/
  | unselected {n : Nat} {v : Value} (last : x.did.head? = some (.sent n (selection db)))
      (heard : net.heard n x.after.events = .reply v) (refused : ¬ IsAcknowledgement v)

/-- Whether what was sent last in a call has a reply that acknowledges nothing. -/
def Declined (net : Network) (x : Made) : Prop :=
  ∃ n bytes v, x.did.head? = some (.sent n bytes) ∧ net.heard n x.after.events = .reply v ∧
    ¬ IsAcknowledgement v

theorem did_eq {x : Made} {did : List WireEvent} (h : x.after.events = did ++ x.before.events) :
    x.did = did := by
  simp [Made.did, h]

theorem declined_iff {x : Made} {did : List WireEvent} (hdid : x.did = .sent n bytes :: did) :
    x.Declined net ↔ ∃ v, net.heard n x.after.events = .reply v ∧ ¬ IsAcknowledgement v := by
  constructor
  · rintro ⟨m, bytes', v, last, heard, refused⟩
    rw [hdid] at last
    cases last
    exact ⟨v, heard, refused⟩
  · rintro ⟨v, heard, refused⟩
    exact ⟨n, bytes, v, by rw [hdid]; rfl, heard, refused⟩

theorem fails_iff {x : Made} {did : List WireEvent} (hdid : x.did = .sent n bytes :: did) :
    x.Fails net db ↔ net.heard n x.after.events = .broken ∨
      (bytes = selection db ∧ x.Declined net) := by
  rw [declined_iff hdid]
  constructor
  · intro hfails
    cases hfails with
    | refused last =>
      rw [hdid] at last
      cases last
    | broken last heard =>
      rw [hdid] at last
      cases last
      exact .inl heard
    | unselected last heard refused =>
      rw [hdid] at last
      cases last
      exact .inr ⟨rfl, _, heard, refused⟩
  · rintro (heard | ⟨rfl, v, heard, refused⟩)
    · exact .broken (by rw [hdid]; rfl) heard
    · exact .unselected (by rw [hdid]; rfl) heard refused

/-- What one may rely on in a call, by the connection that was kept for it and the one that is kept
then. -/
structure Follows (net : Network) (db : Nat) (kept kept' : Option Connection) (x : Made) : Prop where
  course : Course net db kept x.before x.did x.after
  fails : (∃ failure, x.result = some (.error failure)) ↔ x.Fails net db ∨ x.Declined net
  sends : ∀ words, x.call.words? = some words → x.result = none ∨ x.Fails net db ∨
    ∃ n, x.did.head? = some (.sent n (Value.array words).encode)
  keeps : ∀ c, kept' = some c → c.Selected net db x.after.events ∧
    IsOwn kept x.before x.after c.number ∧ ¬ x.Fails net db

/-- How the call on the link ends tells what becomes of the call on the sink. -/
theorem follows_of_ends {x : Made} {kept kept' : Option Connection} {did : List WireEvent}
    {words : List Value} {r : Option (Except Failure Value)} (hwords : x.call.words? = some words)
    (hresult : x.result = r.map fun r => r.bind acknowledged)
    (hcourse : Course net db kept x.before did x.after)
    (hends : Link.Ends net db (.array words) x.after.events did r kept') :
    x.Follows net db kept kept' := by
  have hdid : x.did = did := did_eq hcourse.events
  have hfailed : ∀ failure, x.result = some (.error failure) → x.Fails net db → kept' = none →
      x.Follows net db kept kept' := by
    rintro failure herror hfails rfl
    rw [← hdid] at hcourse
    refine ⟨hcourse, ?_, fun _ _ => .inr (.inl hfails), nofun⟩
    exact iff_of_true ⟨failure, herror⟩ (.inl hfails)
  cases hends with
  | refused address failure =>
    exact hfailed failure hresult (.refused (by rw [hdid]; rfl)) rfl
  | unselected failure heard =>
    refine hfailed failure hresult ?_ rfl
    rw [fails_iff hdid, declined_iff hdid]
    exact heard.imp_right fun h => ⟨rfl, h⟩
  | broken failure heard =>
    exact hfailed failure hresult ((fails_iff hdid).mpr (.inl heard)) rfl
  | waiting heard =>
    rw [← hdid] at hcourse
    refine ⟨hcourse, ?_, fun _ _ => .inl hresult, nofun⟩
    rw [hresult, fails_iff hdid, declined_iff hdid, heard]
    simp
  | @answered c v did heard selected =>
    have hfails : ¬ x.Fails net db := by
      rw [fails_iff hdid, heard]
      rintro (hbroken | ⟨hsame, -⟩)
      · cases hbroken
      · exact (Call.isStoreCommand hwords).encode_ne db hsame
    rw [← hdid] at hcourse
    refine ⟨hcourse, ?_, ?_, ?_⟩
    · -- the result is what the reply says
      have houtcome : x.result = some (acknowledged v) := hresult
      rw [houtcome, declined_iff hdid, heard]
      rcases acknowledged_cases v with ⟨hack, hok⟩ | ⟨hack, failure, herror⟩
      · simp [hok, hfails, hack]
      · simp [herror, hack]
    · intro words' hwords'
      rw [hwords] at hwords'
      cases hwords'
      exact .inr (.inr ⟨c.number, by rw [hdid]; rfl⟩)
    · rintro c' ⟨⟩
      exact ⟨selected, hcourse.sent _ _ (by rw [hdid]; exact List.mem_cons_self), hfails⟩

end Made

variable {s s' : RemoteSink} {op : Call} {result : Option (Except Failure Unit)}

/-- A call that sends nothing leaves everything as it was. -/
theorem follows_of_idle (hop : op.words? = none) (hw : w.Consistent)
    (hkept : ∀ c, s.link.connection? = some c → c.Selected net db w.events) :
    Made.Follows net db s.link.connection? s.link.connection? ⟨op, some (.ok ()), w, w⟩ := by
  have hdid : Made.did ⟨op, some (.ok ()), w, w⟩ = [] := Made.did_eq rfl
  have hfails : ¬ Made.Fails net db ⟨op, some (.ok ()), w, w⟩ := by
    intro hfails
    cases hfails with
    | refused last | broken last _ | unselected last _ _ =>
      rw [hdid] at last
      cases last
  have hdeclined : ¬ Made.Declined net ⟨op, some (.ok ()), w, w⟩ := by
    rintro ⟨n, bytes, v, last, -, -⟩
    rw [hdid] at last
    cases last
  refine ⟨?_, iff_of_false (by simp) (not_or.mpr ⟨hfails, hdeclined⟩), ?_, ?_⟩
  · rw [hdid]
    exact .refl hw hkept
  · intro words hwords
    rw [hop] at hwords
    cases hwords
  · intro c hc
    exact ⟨hkept c hc, .inr ⟨c, hc, rfl⟩, hfails⟩

theorem follows_of_perform {words : List Value} (hop : op.words? = some words)
    (hdb : s.selects? = some db) (hw : w.Consistent)
    (hkept : ∀ c, s.link.connection? = some c → c.Selected net db w.events)
    (h : s.perform net words w = (result, s', w')) :
    s'.database = s.database ∧
      Made.Follows net db s.link.connection? s'.link.connection? ⟨op, result, w, w'⟩ := by
  rcases hcall : s.link.call net (some db) (.array words) w with ⟨r, l', w₁⟩
  obtain ⟨did, hcourse, hends⟩ := Link.call_ends hw hkept (Call.isStoreCommand hop) hcall
  have hresult : (result, s', w')
      = (r.map fun r => r.bind acknowledged, { s with link := l' }, w₁) := by
    rw [← h, perform, hdb, Link.perform, hcall]
    rcases r with _ | failure | v <;> rfl
  cases hresult
  exact ⟨rfl, Made.follows_of_ends hop rfl hcourse hends⟩

theorem follows_of_make (hdb : s.selects? = some db) (hw : w.Consistent)
    (hkept : ∀ c, s.link.connection? = some c → c.Selected net db w.events)
    (h : op.make net s w = (result, s', w')) :
    s'.database = s.database ∧
      Made.Follows net db s.link.connection? s'.link.connection? ⟨op, result, w, w'⟩ := by
  rw [Call.make_eq] at h
  cases hop : op.words? with
  | none =>
    rw [hop] at h
    cases h
    exact ⟨rfl, follows_of_idle hop hw hkept⟩
  | some words =>
    rw [hop] at h
    exact follows_of_perform hop hdb hw hkept h

/-! ## Runs -/

/-- Calls on a new sink, one after the other, with anything done on other connections between them. A
call that does not return keeps the sink from all others. -/
inductive Run (net : Network) (address database : String) :
    List Made → Option RemoteSink → Wire → Prop where
  | start {w : Wire} (consistent : w.Consistent) :
      Run net address database [] (some (ofAddress address database)) w
  | elsewhere {made : List Made} {s? : Option RemoteSink} {w w' : Wire} {more : List WireEvent}
      (run : Run net address database made s? w) (consistent : w'.Consistent)
      (events : w'.events = more ++ w.events)
      (untouched : ∀ x ∈ made, ∀ n, x.Opened n → Untouched n more) :
      Run net address database made s? w'
  | call {made : List Made} {s s' : RemoteSink} {w w' : Wire} {call : Call}
      {result : Option (Except Failure Unit)} (run : Run net address database made (some s) w)
      (step : call.make net s w = (result, s', w')) :
      Run net address database (made ++ [⟨call, result, w, w'⟩]) (result.map fun _ => s') w'

/-- What one may rely on in a connection that is kept behind some calls. -/
structure Kept (net : Network) (db : Nat) (made : List Made) (w : Wire) (c : Connection) : Prop where
  selected : c.Selected net db w.events
  opened : ∃ x ∈ made, x.Opened c.number
  anew : ∀ x ∈ made, x.Fails net db → x.after.connections ≤ c.number

/-- The invariant of a run. -/
structure Sound (net : Network) (db : Nat) (kept : Option Connection) (made : List Made) (w : Wire) :
    Prop where
  consistent : w.Consistent
  after : ∀ x ∈ made, x.after.connections ≤ w.connections
  selects : ∀ x ∈ made, ∀ n, x.Opened n → SelectsFirst net db n w.events
  sent : ∀ x ∈ made, ∀ n bytes, .sent n bytes ∈ x.did → ∃ y ∈ made, y.Opened n
  fails : ∀ x ∈ made, (∃ failure, x.result = some (.error failure)) ↔
    x.Fails net db ∨ x.Declined net
  sends : ∀ x ∈ made, ∀ words, x.call.words? = some words → x.result = none ∨ x.Fails net db ∨
    ∃ n, x.did.head? = some (.sent n (Value.array words).encode)
  anew : made.Pairwise fun x y => x.Fails net db →
    ∀ n bytes, .sent n bytes ∈ y.did → x.after.connections ≤ n
  kept : ∀ c, kept = some c → Kept net db made w c

namespace Sound

variable {kept kept' : Option Connection} {made : List Made} {x : Made}

theorem start (hw : w.Consistent) : Sound net db none [] w where
  consistent := hw
  after := by simp
  selects := by simp
  sent := by simp
  fails := by simp
  sends := by simp
  anew := .nil
  kept := by simp

/-- The connections on which something is sent in a call were made in it, or in one before it but
behind all that failed. -/
theorem of_isOwn (h : Sound net db kept made w) (hown : IsOwn kept w w' n) :
    ((w.connections ≤ n ∧ n < w'.connections) ∨ ∃ y ∈ made, y.Opened n) ∧
      ∀ y ∈ made, y.Fails net db → y.after.connections ≤ n := by
  rcases hown with hopened | ⟨c, hc, rfl⟩
  · refine ⟨.inl hopened, ?_⟩
    intro y hy _
    exact (h.after y hy).trans hopened.1
  · have hkept := h.kept c hc
    exact ⟨.inr hkept.opened, hkept.anew⟩

theorem elsewhere (h : Sound net db kept made w) (hw' : w'.Consistent)
    (hevents : w'.events = more ++ w.events)
    (huntouched : ∀ x ∈ made, ∀ n, x.Opened n → Untouched n more) : Sound net db kept made w' where
  consistent := hw'
  after := by
    have hle : w.connections ≤ w'.connections := by
      rw [h.consistent.connections, hw'.connections, hevents]
      simp [openedTo]
    intro x hx
    exact (h.after x hx).trans hle
  selects := by
    intro x hx n hn
    rw [hevents]
    exact (h.selects x hx n hn).append (huntouched x hx n hn)
  sent := h.sent
  fails := h.fails
  sends := h.sends
  anew := h.anew
  kept := by
    intro c hc
    obtain ⟨hselected, ⟨x, hx, hn⟩, hanew⟩ := h.kept c hc
    refine ⟨?_, ⟨x, hx, hn⟩, hanew⟩
    rw [hevents]
    exact hselected.append (huntouched x hx _ hn)

theorem call (h : Sound net db kept made x.before) (hx : x.Follows net db kept kept') :
    Sound net db kept' (made ++ [x]) x.after := by
  have hopened : ∀ n, IsOwn kept x.before x.after n → ∃ y ∈ made ++ [x], y.Opened n := by
    intro n hown
    rcases (h.of_isOwn hown).1 with hnew | ⟨y, hy, hn⟩
    · exact ⟨x, by simp, hnew⟩
    · exact ⟨y, List.mem_append_left _ hy, hn⟩
  refine ⟨hx.course.consistent, ?_, ?_, ?_, ?_, ?_, ?_, ?_⟩
  · rw [List.forall_mem_append]
    refine ⟨?_, by simp⟩
    intro y hy
    exact (h.after y hy).trans hx.course.connections
  · rw [List.forall_mem_append]
    constructor
    · intro y hy n hn
      by_cases hown : IsOwn kept x.before x.after n
      · exact hx.course.selects n hown
      · have huntouched : Untouched n x.did := fun bytes hmem => hown (hx.course.sent n bytes hmem)
        rw [hx.course.events]
        exact (h.selects y hy n hn).append huntouched
    · rw [List.forall_mem_singleton]
      exact fun n hn => hx.course.selects n (.inl hn)
  · rw [List.forall_mem_append, List.forall_mem_singleton]
    constructor
    · intro y hy n bytes hmem
      obtain ⟨z, hz, hn⟩ := h.sent y hy n bytes hmem
      exact ⟨z, List.mem_append_left _ hz, hn⟩
    · exact fun n bytes hmem => hopened n (hx.course.sent n bytes hmem)
  · rw [List.forall_mem_append, List.forall_mem_singleton]
    exact ⟨h.fails, hx.fails⟩
  · rw [List.forall_mem_append, List.forall_mem_singleton]
    exact ⟨h.sends, hx.sends⟩
  · rw [List.pairwise_append]
    refine ⟨h.anew, List.pairwise_singleton _ _, ?_⟩
    intro y hy z hz hfails n bytes hmem
    rw [List.mem_singleton.mp hz] at hmem
    exact (h.of_isOwn (hx.course.sent n bytes hmem)).2 y hy hfails
  · intro c hc
    obtain ⟨hselected, hown, hnot⟩ := hx.keeps c hc
    refine ⟨hselected, hopened _ hown, ?_⟩
    rw [List.forall_mem_append, List.forall_mem_singleton]
    exact ⟨(h.of_isOwn hown).2, fun hfails => absurd hfails hnot⟩

end Sound

theorem Run.sound {address database : String} {made : List Made} {s? : Option RemoteSink}
    (hdb : (ofAddress address database).selects? = some db)
    (run : Run net address database made s? w) :
    (∀ s, s? = some s → s.database = database) ∧
      Sound net db (s?.bind fun s => s.link.connection?) made w := by
  induction run with
  | start consistent =>
    constructor
    · rintro s ⟨⟩
      rfl
    · exact Sound.start consistent
  | elsewhere run consistent events untouched ih =>
    exact ⟨ih.1, ih.2.elsewhere consistent events untouched⟩
  | @call made s s' w w' op result run step ih =>
    obtain ⟨hdatabase, hsound⟩ := ih
    have hs : s.selects? = some db := by
      rw [selects?, hdatabase s rfl]
      exact hdb
    have hkept : ∀ c, s.link.connection? = some c → c.Selected net db w.events :=
      fun c hc => (hsound.kept c hc).selected
    obtain ⟨hsame, hfollows⟩ := follows_of_make hs hsound.consistent hkept step
    have hsound' := hsound.call hfollows
    cases result with
    | none =>
      refine ⟨by simp, ?_⟩
      exact { hsound' with kept := by simp }
    | some outcome =>
      refine ⟨?_, hsound'⟩
      rintro s' ⟨⟩
      exact hsame.trans (hdatabase s rfl)

/-- A sink whose database has a number never writes to another one, whatever connections fail and
whatever is replied: on every connection that it makes the number is selected before anything else
and once, and no command is sent there before this is acknowledged. A call that returns has sent its
command, unless it failed. It returns an error exactly if it failed or a reply acknowledges nothing,
and behind a call that failed everything is sent on connections that are made later. -/
theorem Run.keeps_to_database {address database : String} {made : List Made} {s? : Option RemoteSink}
    (hdb : (ofAddress address database).selects? = some db)
    (run : Run net address database made s? w) :
    (∀ x ∈ made, ∀ n, x.Opened n → SelectsFirst net db n w.events ∧
      (sentOn n w.events).count (selection db) = 1) ∧
    (∀ x ∈ made, ∀ n bytes, .sent n bytes ∈ x.did → ∃ y ∈ made, y.Opened n) ∧
    (∀ x ∈ made, ∀ words, x.call.words? = some words → x.result = none ∨ x.Fails net db ∨
      ∃ n, x.did.head? = some (.sent n (Value.array words).encode)) ∧
    (∀ x ∈ made, (∃ failure, x.result = some (.error failure)) ↔
      x.Fails net db ∨ x.Declined net) ∧
    made.Pairwise fun x y => x.Fails net db →
      ∀ n bytes, .sent n bytes ∈ y.did → x.after.connections ≤ n := by
  have hsound := (run.sound hdb).2
  refine ⟨?_, hsound.sent, hsound.sends, hsound.fails, hsound.anew⟩
  intro x hx n hn
  have hfirst := hsound.selects x hx n hn
  exact ⟨hfirst, hfirst.count_selection⟩

namespace Unsteady

/-- A network that refuses the first connection. The store refuses the database on the next, the one
after that breaks when a command is sent, and the others are in order. -/
def network : Network where
  refusal? := fun events _ => if events.isEmpty then some "connection refused" else none
  deliver := fun events n =>
    match n, (sentOn n events).length with
    | 0, _ => { bytes := [45, 69, 82, 82, 13, 10] }
    | 1, 2 => { loss? := some "broken pipe" }
    | _, _ => { bytes := [43, 79, 75, 13, 10] }

def refused : Option (Except Failure Unit) × RemoteSink × Wire :=
  (Call.put "a" [1]).make network (ofAddress "store" "+2") {}

def unselected : Option (Except Failure Unit) × RemoteSink × Wire :=
  (Call.put "a" [1]).make network refused.2.1 refused.2.2

def broken : Option (Except Failure Unit) × RemoteSink × Wire :=
  (Call.put "a" [1]).make network unselected.2.1 unselected.2.2

def stored : Option (Except Failure Unit) × RemoteSink × Wire :=
  (Call.put "a" [1]).make network broken.2.1 broken.2.2

def erased : Option (Except Failure Unit) × RemoteSink × Wire :=
  (Call.erase "a").make network stored.2.1 stored.2.2

theorem eq_of_fst {x : Option (Except Failure Unit) × RemoteSink × Wire}
    {result : Option (Except Failure Unit)} (h : x.1 = result) : x = (result, x.2.1, x.2.2) := by
  rw [← h]

theorem refused_eq :
    refused.1 = some (.error (.transport "connect store: connection refused")) := by decide +kernel

theorem unselected_eq : unselected.1 = some (.error (.sink "ERR")) := by decide +kernel

theorem broken_eq : broken.1 = some (.error (.transport "store: broken pipe")) := by decide +kernel

theorem stored_eq : stored.1 = some (.ok ()) := by decide +kernel

theorem erased_eq : erased.1 = some (.ok ()) := by decide +kernel

def made : List Made :=
  [⟨.put "a" [1], some (.error (.transport "connect store: connection refused")), {},
      refused.2.2⟩,
    ⟨.put "a" [1], some (.error (.sink "ERR")), refused.2.2, unselected.2.2⟩,
    ⟨.put "a" [1], some (.error (.transport "store: broken pipe")), unselected.2.2, broken.2.2⟩,
    ⟨.put "a" [1], some (.ok ()), broken.2.2, stored.2.2⟩,
    ⟨.erase "a", some (.ok ()), stored.2.2, erased.2.2⟩]

theorem run_made : Run network "store" "+2" made (some erased.2.1) erased.2.2 := by
  have hrefused := Run.call (.start Wire.consistent_empty) (eq_of_fst refused_eq)
  have hunselected := hrefused.call (eq_of_fst unselected_eq)
  have hbroken := hunselected.call (eq_of_fst broken_eq)
  have hstored := hbroken.call (eq_of_fst stored_eq)
  exact hstored.call (eq_of_fst erased_eq)

/-- The answer to the selection that the store refuses. -/
def refusal : Spelled where
  bytes := [45, 69, 82, 82, 13, 10]
  value := .error "ERR"
  spells := by
    have hbytes : 45 :: Bytes.ofText "ERR" ++ Value.lineEnd = [45, 69, 82, 82, 13, 10] := by
      decide +kernel
    have h := spells_encode_of_admits (v := .error "ERR") (by decide +kernel)
    rwa [Value.encode, hbytes] at h

theorem heard_unselected : network.heard 0 unselected.2.2.events = .reply (.error "ERR") := by
  have hstream : (network.stream 0 unselected.2.2.events).bytes
      = [refusal].flatMap Spelled.bytes ++ [] := rfl
  have hreplies : network.replies 0 unselected.2.2.events = [.error "ERR"] := by
    rw [Network.replies, hstream, drain_spelled, Resp.Codec.drain_nil]
    rfl
  rw [Network.heard, hreplies]
  rfl

theorem fails_made : ∀ x ∈ made.take 3, x.Fails network 2 := by
  intro x hx
  have hcases : x = made[0] ∨ x = made[1] ∨ x = made[2] := by simpa [made] using hx
  rcases hcases with rfl | rfl | rfl
  · exact .refused rfl
  · exact .unselected rfl heard_unselected (by simp [IsAcknowledgement])
  · exact .broken rfl rfl

/-- Three calls fail, each in another way. The next one is sent on a connection of its own. -/
theorem keeps_to_database_unsteady : ∃ made s? w,
    (ofAddress "store" "+2").selects? = some 2 ∧ Run network "store" "+2" made s? w ∧
      made.map Made.result = [some (.error (.transport "connect store: connection refused")),
        some (.error (.sink "ERR")), some (.error (.transport "store: broken pipe")),
        some (.ok ()), some (.ok ())] ∧
      (∀ x ∈ made.take 3, x.Fails network 2) ∧
      (∀ n < 3, SelectsFirst network 2 n w.events ∧ (sentOn n w.events).count (selection 2) = 1) ∧
      ∀ y ∈ made.drop 3, ∀ n bytes, .sent n bytes ∈ y.did → 2 ≤ n := by
  have hdb : (ofAddress "store" "+2").selects? = some 2 := by decide +kernel
  obtain ⟨hselects, -, -, -, hanew⟩ := Run.keeps_to_database hdb run_made
  refine ⟨made, _, _, hdb, run_made, rfl, fails_made, ?_, ?_⟩
  · intro n hn
    have hopened : ∃ x ∈ made, x.Opened n := by
      interval_cases n
      · exact ⟨made[1], by simp [made], by decide +kernel, by decide +kernel⟩
      · exact ⟨made[2], by simp [made], by decide +kernel, by decide +kernel⟩
      · exact ⟨made[3], by simp [made], by decide +kernel, by decide +kernel⟩
    obtain ⟨x, hx, hn⟩ := hopened
    exact hselects x hx n hn
  · intro y hy n bytes hmem
    have hbroken : made[2] ∈ made.take 3 := by simp [made]
    rw [← List.take_append_drop 3 made, List.pairwise_append] at hanew
    exact hanew.2.2 _ hbroken y hy (fails_made _ hbroken) n bytes hmem

end Unsteady

end RemoteSink

end Telemetry
