import Telemetry.Network.Wire
import Mathlib

/-!
# What the events of a wire tell

The events tell to which address every connection was made and what was sent on it. A wire is
consistent if it numbers the connections in the order in which they were made and nothing was sent
on a connection before it was made.

## Main definitions

* `Wire.Consistent`: the numbers on the wire agree with its events.
* `Wire.OnlyOn`: between two moments, nothing was sent on the old connections but on one of them.
-/
namespace Telemetry

variable {events : List WireEvent} {net : Network} {w w' w'' : Wire} {m n : Nat}

/-- The addresses to which connections were made, oldest first, given the events newest first. -/
def openedTo (events : List WireEvent) : List String :=
  (events.filterMap fun
    | .opened address => some address
    | .refused _ | .sent _ _ => none).reverse

@[simp] theorem openedTo_opened (address : String) :
    openedTo (.opened address :: events) = openedTo events ++ [address] := by
  simp [openedTo]

@[simp] theorem openedTo_refused (address : String) :
    openedTo (.refused address :: events) = openedTo events := by
  simp [openedTo]

@[simp] theorem openedTo_sent (bytes : Bytes) :
    openedTo (.sent n bytes :: events) = openedTo events := by
  simp [openedTo]

@[simp] theorem sentOn_opened (address : String) :
    sentOn n (.opened address :: events) = sentOn n events := by
  simp [sentOn]

@[simp] theorem sentOn_refused (address : String) :
    sentOn n (.refused address :: events) = sentOn n events := by
  simp [sentOn]

@[simp] theorem sentOn_sent_self (bytes : Bytes) :
    sentOn n (.sent n bytes :: events) = sentOn n events ++ [bytes] := by
  simp [sentOn]

theorem sentOn_sent_of_ne (h : m ≠ n) (bytes : Bytes) :
    sentOn m (.sent n bytes :: events) = sentOn m events := by
  simp [sentOn, Ne.symm h]

/-- Whether nothing was sent on a connection. -/
def Untouched (n : Nat) (events : List WireEvent) : Prop := ∀ bytes, .sent n bytes ∉ events

theorem Untouched.of_cons {e : WireEvent} (h : Untouched n (e :: events)) : Untouched n events := by
  intro bytes hmem
  exact h bytes (List.mem_cons_of_mem _ hmem)

theorem Untouched.ne {bytes : Bytes} (h : Untouched n (.sent m bytes :: events)) : m ≠ n := by
  rintro rfl
  exact h bytes List.mem_cons_self

theorem untouched_of_sentOn (h : sentOn n events = []) : Untouched n events := by
  intro bytes hmem
  have hsent : bytes ∈ sentOn n events := by
    rw [sentOn, List.mem_reverse, List.mem_filterMap]
    exact ⟨_, hmem, if_pos rfl⟩
  rw [h] at hsent
  cases hsent

namespace Wire

/-- Whether the numbers on a wire agree with its events. -/
structure Consistent (w : Wire) : Prop where
  connections : w.connections = (openedTo w.events).length
  sent : ∀ n bytes, .sent n bytes ∈ w.events → n < w.connections

/-- Whether nothing was sent between two moments on the connections that there were at the first,
except for one of them. -/
structure OnlyOn (n : Nat) (w w' : Wire) : Prop where
  consistent : w'.Consistent
  opened : openedTo w.events <+: openedTo w'.events
  sent : ∀ m, m < w.connections → m ≠ n → sentOn m w'.events = sentOn m w.events

theorem consistent_empty : ({} : Wire).Consistent := ⟨rfl, by simp⟩

theorem Consistent.lt_of_openedTo (h : w.Consistent) {address : String}
    (ha : (openedTo w.events)[n]? = some address) : n < w.connections := by
  rw [h.connections]
  exact (List.getElem?_eq_some_iff.mp ha).1

/-- Nothing was sent on a connection that was not made. -/
theorem Consistent.sentOn_eq_nil (h : w.Consistent) (hn : w.connections ≤ n) :
    sentOn n w.events = [] := by
  rw [sentOn, List.reverse_eq_nil_iff, List.filterMap_eq_nil_iff]
  intro e he
  cases e with
  | sent m bytes =>
    have hm := h.sent m bytes he
    exact if_neg (by omega)
  | opened address | refused address => rfl

theorem Consistent.lt_of_sentOn (h : w.Consistent) (hn : sentOn n w.events ≠ []) :
    n < w.connections := by
  by_contra hle
  exact hn (h.sentOn_eq_nil (not_lt.mp hle))

theorem OnlyOn.refl (h : w.Consistent) : w.OnlyOn n w := ⟨h, List.prefix_refl _, fun _ _ _ => rfl⟩

theorem OnlyOn.connections_le (h : w.OnlyOn n w') (hw : w.Consistent) :
    w.connections ≤ w'.connections := by
  rw [hw.connections, h.consistent.connections]
  exact h.opened.length_le

theorem OnlyOn.trans (hw : w.Consistent) (h : w.OnlyOn n w') (h' : w'.OnlyOn n w'') :
    w.OnlyOn n w'' where
  consistent := h'.consistent
  opened := h.opened.trans h'.opened
  sent m hm hne := by
    have hle := h.connections_le hw
    rw [h'.sent m (by omega) hne, h.sent m hm hne]

/-- A connection keeps its address. -/
theorem OnlyOn.openedTo_eq (h : w.OnlyOn n w') {address : String}
    (ha : (openedTo w.events)[m]? = some address) : (openedTo w'.events)[m]? = some address := by
  obtain ⟨more, hmore⟩ := h.opened
  rw [← hmore, List.getElem?_append_left (List.getElem?_eq_some_iff.mp ha).1]
  exact ha

/-! ## The steps of a wire -/

/-- The wire with one more connection. -/
def opening (w : Wire) (address : String) : Wire :=
  { w.record (.opened address) with connections := w.connections + 1 }

theorem Consistent.opening (h : w.Consistent) (address : String) :
    (w.opening address).Consistent where
  connections := by simp [Wire.opening, record, h.connections]
  sent := by
    intro m bytes hmem
    have hlt := h.sent m bytes (by simpa [Wire.opening, record] using hmem)
    exact Nat.lt_succ_of_lt hlt

theorem Consistent.refused (h : w.Consistent) (address : String) :
    (w.record (.refused address)).Consistent where
  connections := by simp [record, h.connections]
  sent := by
    intro m bytes hmem
    exact h.sent m bytes (by simpa [record] using hmem)

theorem Consistent.sending (h : w.Consistent) (hn : n < w.connections) (bytes : Bytes) :
    (w.record (.sent n bytes)).Consistent where
  connections := by simp [record, h.connections]
  sent := by
    intro m bytes' hmem
    rcases List.mem_cons.mp hmem with hlast | hbefore
    · cases hlast
      exact hn
    · exact h.sent m bytes' hbefore

/-- Nothing was sent on a new connection. -/
theorem Consistent.sentOn_opening (h : w.Consistent) (address : String) :
    sentOn w.connections (w.opening address).events = [] := by
  rw [Wire.opening, record, sentOn_opened, h.sentOn_eq_nil le_rfl]

/-- A connection that is made gets the next number. -/
theorem connect_ok {address : String} (hw : w.Consistent)
    (h : w.connect net address = (.ok n, w')) :
    n = w.connections ∧ (openedTo w'.events)[n]? = some address ∧ sentOn n w'.events = [] ∧
      w.OnlyOn n w' := by
  unfold connect at h
  split at h
  · cases h
  · cases h
    have hlen := hw.connections
    refine ⟨rfl, ?_, hw.sentOn_opening address, hw.opening address, ?_, fun m _ _ => ?_⟩
    · simp [record, hlen]
    · simp [record]
    · simp [record]

theorem connect_error {address detail : String} (hw : w.Consistent)
    (h : w.connect net address = (.error detail, w')) : w.OnlyOn n w' := by
  unfold connect at h
  split at h
  · cases h
    refine ⟨hw.refused address, ?_, fun m _ _ => ?_⟩
    · simp [record]
    · simp [record]
  · cases h

theorem onlyOn_send (net : Network) (hw : w.Consistent) (hn : n < w.connections)
    (bytes : Bytes) : w.OnlyOn n (w.send net n bytes).2 := by
  refine ⟨hw.sending hn bytes, ?_, fun m _ hne => ?_⟩
  · simp [send, record]
  · exact sentOn_sent_of_ne hne bytes

theorem onlyOn_nextRegion (hw : w.Consistent) : w.OnlyOn n w.nextRegion.2 :=
  ⟨⟨hw.connections, hw.sent⟩, List.prefix_refl _, fun _ _ _ => rfl⟩

end Wire

end Telemetry
