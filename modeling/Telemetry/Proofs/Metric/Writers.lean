import Telemetry.Metric.Writers
import Telemetry.Proofs.Interleaving
import Telemetry.Proofs.Metric.History

/-!
# Writers of one gauge

Writers take turns in recording their values in one gauge, in any order. A gauge admits every number,
so its window is the front of what the writers attempted, up to the capacity, and from this front
each writer can pick out a front of its own values.

## Main definitions

* `Writer.attempts`: the samples that the writers attempted to record, in the order of their turns.
* `Writer.Shared`: what writers find in a gauge that they share.

## Main statements

* `SampleBuffer.Offered.push`: what one more sample makes of a gauge.
* `Writer.InProgress.advance`: no turn loses, repeats or reorders anything.
* `Writer.shared_run`: what the writers find after any turns.
-/
namespace Telemetry

/-! ## One gauge -/

namespace SampleBuffer

variable {b b' : SampleBuffer} {s : Sample} {capacity : Nat} {samples : List Sample}
  {value time : Double} {writer : UInt64}

/-- A gauge of a capacity, to which some samples were offered. -/
structure Offered (b : SampleBuffer) (capacity : Nat) (samples : List Sample) : Prop where
  kind : b.kind = .gauge
  capacity_eq : b.capacity = capacity
  window : b.window = samples.take capacity

theorem offered_of_ofCapacity (h : ofCapacity .gauge capacity = .ok b) :
    b.Offered capacity [] := by
  obtain ⟨hkind, hcapacity, hwindow, -⟩ := new_of_ofCapacity h
  exact ⟨hkind, hcapacity, by rw [hwindow, List.take_nil]⟩

theorem Offered.append_eq_push (h : b.Offered capacity samples) (hnan : value.isNaN = false) :
    b.append value time writer = b.push ⟨time, value, writer⟩ := by
  apply append_of_admits hnan
  rw [h.kind]
  trivial

theorem Offered.push_of_full (h : b.Offered capacity samples) (hfull : capacity ≤ samples.length) :
    b.push s = .error (.bufferFull capacity) := by
  have hsize : ¬ b.samples.size < b.capacity := by
    rw [← length_window, h.window, h.capacity_eq, List.length_take]
    omega
  rw [push, dif_neg hsize, h.capacity_eq]

theorem Offered.exists_push (h : b.Offered capacity samples) (hroom : samples.length < capacity) :
    ∃ b', b.push s = .ok b' := by
  rw [exists_push_iff, h.window, h.capacity_eq, List.length_take]
  omega

/-- A sample is recorded behind the others. -/
theorem Offered.push (h : b.Offered capacity samples) (hroom : samples.length < capacity)
    (hpush : b.push s = .ok b') : b'.Offered capacity (samples ++ [s]) := by
  obtain ⟨hkind, hcapacity, hwindow⟩ := extended_of_push hpush
  refine ⟨hkind.trans h.kind, hcapacity.trans h.capacity_eq, ?_⟩
  rw [hwindow, h.window, List.take_of_length_le hroom.le,
    List.take_of_length_le (by simpa using hroom)]

/-- A full gauge has been offered anything that comes later. -/
theorem Offered.of_full (h : b.Offered capacity samples) (hfull : capacity ≤ samples.length) :
    b.Offered capacity (samples ++ [s]) :=
  ⟨h.kind, h.capacity_eq, by rw [h.window, List.take_append_of_le_length hfull]⟩

end SampleBuffer

namespace Writer

variable {b : SampleBuffer} {w w' : Writer} {writers : List Writer} {capacity i : Nat}
  {attempted : List Sample} {x : Sample} {s : Interleaving SampleBuffer Writer}

/-! ## One turn -/

/-- The samples that a writer has still to record. -/
def toRecord (w : Writer) : List Sample := w.pending.map fun (value, time) => ⟨time, value, w.tag⟩

theorem writer_of_mem_toRecord (hx : x ∈ w.toRecord) : x.writer = w.tag := by
  simp only [toRecord, List.mem_map] at hx
  obtain ⟨p, -, rfl⟩ := hx
  rfl

theorem tag_step (b : SampleBuffer) (w : Writer) : (w.step b).2.tag = w.tag := by
  rw [step]
  split
  · rfl
  · split <;> rfl

/-- Whether a value is recorded or refused, the writer goes on with the next one. -/
theorem toRecord_step (b : SampleBuffer) (w : Writer) : (w.step b).2.toRecord = w.toRecord.tail := by
  rw [step]
  split
  · simp [toRecord, *]
  · split <;> simp [toRecord, *]

theorem step_of_nil (b : SampleBuffer) (h : w.toRecord = []) : w.step b = (b, w) := by
  have hpending : w.pending = [] := List.map_eq_nil_iff.mp h
  rw [step, hpending]

theorem append_of_mem_head? (h : b.Offered capacity attempted) (hx : x ∈ w.toRecord.head?)
    (hnan : x.value.isNaN = false) : b.append x.value x.time w.tag = b.push x := by
  rw [h.append_eq_push hnan, ← writer_of_mem_toRecord (List.mem_of_mem_head? hx)]

/-- What a turn of a writer makes of the buffer. -/
theorem fst_step (h : b.Offered capacity attempted) (hx : x ∈ w.toRecord.head?)
    (hnan : x.value.isNaN = false) : (w.step b).1 = (b.push x).toOption.getD b := by
  have happend := append_of_mem_head? h hx hnan
  rw [step]
  cases hpending : w.pending with
  | nil => simp [toRecord, hpending] at hx
  | cons p rest =>
    obtain rfl : ⟨p.2, p.1, w.tag⟩ = x := by simpa [toRecord, hpending] using hx
    simp only [happend]
    cases b.push ⟨p.2, p.1, w.tag⟩ <;> rfl

theorem offered_step (h : b.Offered capacity attempted) (hx : x ∈ w.toRecord.head?)
    (hnan : x.value.isNaN = false) : (w.step b).1.Offered capacity (attempted ++ [x]) := by
  rw [fst_step h hx hnan]
  by_cases hroom : attempted.length < capacity
  · obtain ⟨b', hb'⟩ := h.exists_push (s := x) hroom
    rw [hb']
    exact h.push hroom hb'
  · rw [h.push_of_full (Nat.le_of_not_lt hroom)]
    exact h.of_full (Nat.le_of_not_lt hroom)

/-! ## Turns of several writers -/

/-- The sample that a turn is to record, if the writer whose turn it is has one left. -/
def next? (s : Interleaving SampleBuffer Writer) (i : Nat) : Option Sample :=
  s.calls[i]?.bind fun w => w.toRecord.head?

/-- What the writers attempted to record in the turns of a schedule. -/
def attempts (b : SampleBuffer) (writers : List Writer) (schedule : List Nat) : List Sample :=
  Interleaving.log step (fun s i => (next? s i).toList) ⟨b, writers⟩ schedule

/-- Whether some writers, who are to record numbers in a gauge under tags of their own, have attempted
some of it and still have the rest before them. -/
structure InProgress (writers : List Writer) (capacity : Nat) (attempted : List Sample)
    (s : Interleaving SampleBuffer Writer) : Prop where
  buffer : s.state.Offered capacity attempted
  tags : s.calls.map tag = writers.map tag
  /-- A writer goes through its own samples from front to back. -/
  own : ∀ (i : Nat) (w w' : Writer), writers[i]? = some w → s.calls[i]? = some w' →
    w.samplesIn attempted ++ w'.toRecord = w.toRecord
  /-- Together the writers attempt what they have, and nothing else. -/
  perm : (attempted ++ s.calls.flatMap toRecord).Perm (writers.flatMap toRecord)

theorem samplesIn_append (w : Writer) (samples more : List Sample) :
    w.samplesIn (samples ++ more) = w.samplesIn samples ++ w.samplesIn more :=
  List.filter_append samples more

theorem samplesIn_of_forall {samples : List Sample} (h : ∀ x ∈ samples, x.writer = w.tag) :
    w.samplesIn samples = samples := by
  rw [samplesIn, List.filter_eq_self]
  simpa using h

theorem samplesIn_eq_nil {samples : List Sample} (h : ∀ x ∈ samples, x.writer ≠ w.tag) :
    w.samplesIn samples = [] := by
  rw [samplesIn, List.filter_eq_nil_iff]
  simpa using h

theorem inProgress_start (hb : SampleBuffer.ofCapacity .gauge capacity = .ok b)
    (writers : List Writer) : InProgress writers capacity [] ⟨b, writers⟩ where
  buffer := SampleBuffer.offered_of_ofCapacity hb
  tags := rfl
  own i w w' hw hw' := by
    obtain rfl : w = w' := Option.some.inj (hw.symm.trans hw')
    rfl
  perm := List.Perm.refl _

theorem next?_of_getElem? (h : s.calls[i]? = some w) : next? s i = w.toRecord.head? := by
  rw [next?, h, Option.bind_some]

/-- A writer is told by its tag. -/
theorem InProgress.tag_eq_iff {j : Nat} {v : Writer} (h : InProgress writers capacity attempted s)
    (htags : (writers.map tag).Nodup) (hi : s.calls[i]? = some w) (hj : writers[j]? = some v) :
    w.tag = v.tag ↔ i = j := by
  have hw : (writers.map tag)[i]? = some w.tag := by
    rw [← h.tags, List.getElem?_map, hi, Option.map_some]
  have hv : (writers.map tag)[j]? = some v.tag := by rw [List.getElem?_map, hj, Option.map_some]
  constructor
  · intro heq
    rw [heq, ← hv] at hw
    have hlt : j < (writers.map tag).length := (List.getElem?_eq_some_iff.mp hv).1
    exact ((List.getElem?_inj hlt htags).mp hw.symm).symm
  · rintro rfl
    exact Option.some.inj (hw.symm.trans hv)

/-- A turn in which a writer attempts to record a sample. -/
theorem InProgress.advance_of_next (h : InProgress writers capacity attempted s)
    (htags : (writers.map tag).Nodup)
    (hnumber : ∀ x ∈ writers.flatMap toRecord, x.value.isNaN = false)
    (hi : s.calls[i]? = some w) (hx : w.toRecord = x :: w'.toRecord) (hw' : w' = (w.step s.state).2) :
    InProgress writers capacity (attempted ++ [x]) (s.advance step i) := by
  have hperm : (attempted ++ x :: (w'.toRecord ++ (s.calls.eraseIdx i).flatMap toRecord)).Perm
      (writers.flatMap toRecord) := by
    have hcalls := Interleaving.perm_flatMap_of_getElem? toRecord hi
    rw [hx] at hcalls
    exact (hcalls.symm.append_left attempted).trans h.perm
  have hhead : x ∈ w.toRecord.head? := by simp [hx]
  have htag : x.writer = w.tag := writer_of_mem_toRecord (List.mem_of_mem_head? hhead)
  constructor
  case buffer =>
    rw [Interleaving.advance_of_some hi]
    exact offered_step h.buffer hhead (hnumber x (hperm.mem_iff.mp (by simp)))
  case tags =>
    rw [Interleaving.map_calls_advance fun b w => tag_step b w]
    exact h.tags
  case own =>
    intro j v v' hv hv'
    have htag' := h.tag_eq_iff htags hi hv
    by_cases hij : i = j
    · have hvw : ∀ y ∈ [x], y.writer = v.tag := by simp [htag, htag'.mpr hij]
      subst hij
      rw [Interleaving.getElem?_advance_self hi, ← hw'] at hv'
      obtain rfl : w' = v' := Option.some.inj hv'
      have hown := h.own i v w hv hi
      rw [hx] at hown
      rw [samplesIn_append, samplesIn_of_forall hvw, List.append_assoc]
      exact hown
    · have hvw : ∀ y ∈ [x], y.writer ≠ v.tag := by simp [htag, htag', hij]
      rw [Interleaving.getElem?_advance_of_ne s hij] at hv'
      rw [samplesIn_append, samplesIn_eq_nil hvw, List.append_nil]
      exact h.own j v v' hv hv'
  case perm =>
    have hcalls := Interleaving.perm_flatMap_set toRecord hi w'
    rw [Interleaving.advance_of_some hi, ← hw', List.append_assoc]
    exact ((hcalls.append_left [x]).append_left attempted).trans hperm

theorem InProgress.advance (h : InProgress writers capacity attempted s)
    (htags : (writers.map tag).Nodup)
    (hnumber : ∀ x ∈ writers.flatMap toRecord, x.value.isNaN = false) (i : Nat) :
    InProgress writers capacity (attempted ++ (next? s i).toList) (s.advance step i) := by
  cases hi : s.calls[i]? with
  | none =>
    have hnext : next? s i = none := by rw [next?, hi, Option.bind_none]
    rw [hnext, Interleaving.advance_of_none hi, Option.toList_none, List.append_nil]
    exact h
  | some w =>
    rw [next?_of_getElem? hi]
    cases hrecord : w.toRecord with
    | nil =>
      rw [Interleaving.advance_of_idle hi (step_of_nil _ hrecord), List.head?_nil, Option.toList_none,
        List.append_nil]
      exact h
    | cons x rest =>
      have hrest : w.toRecord = x :: (w.step s.state).2.toRecord := by
        rw [toRecord_step, hrecord, List.tail_cons]
      rw [List.head?_cons, Option.toList_some]
      exact h.advance_of_next htags hnumber hi hrest rfl

theorem inProgress_run (hb : SampleBuffer.ofCapacity .gauge capacity = .ok b)
    (htags : (writers.map tag).Nodup)
    (hnumber : ∀ x ∈ writers.flatMap toRecord, x.value.isNaN = false) (schedule : List Nat) :
    InProgress writers capacity (attempts b writers schedule)
      (Interleaving.run step ⟨b, writers⟩ schedule) :=
  Interleaving.log_induction schedule (inProgress_start hb writers) fun _ _ i h =>
    h.advance htags hnumber i

/-! ## What the writers find -/

/-- What some writers find in a gauge of a capacity after they attempted to record some samples. -/
structure Shared (writers : List Writer) (capacity : Nat) (attempted : List Sample)
    (s : Interleaving SampleBuffer Writer) : Prop where
  /-- The samples that came first are there, as many as there is room for. -/
  window : s.state.window = attempted.take capacity
  /-- What a writer finds of its own is a front of its samples, in its order. -/
  own : ∀ w ∈ writers, w.samplesIn s.state.window <+: w.toRecord
  /-- While there is room, the next sample is recorded, whoever attempts it. -/
  recorded : ∀ i x, next? s i = some x → attempted.length < capacity →
    s.state.append x.value x.time x.writer = .ok (s.advance step i).state ∧
      (s.advance step i).state.window = s.state.window ++ [x]
  /-- Every attempt beyond the capacity is refused, and changes nothing. -/
  refused : ∀ i x, next? s i = some x → capacity ≤ attempted.length →
    s.state.append x.value x.time x.writer = .error (.bufferFull capacity) ∧
      (s.advance step i).state = s.state
  /-- In the end everything was attempted. -/
  length_window : (∀ w ∈ s.calls, w.pending = []) →
    s.state.window.length = min capacity (writers.map fun w => w.pending.length).sum
  /-- If there was room for everything, everything is there. -/
  all : (∀ w ∈ s.calls, w.pending = []) → (writers.map fun w => w.pending.length).sum ≤ capacity →
    ∀ w ∈ writers, w.samplesIn s.state.window = w.toRecord

/-- A writer whose turn it is attempts to record its next sample. -/
theorem exists_of_next? (h : next? s i = some x) :
    ∃ w, s.calls[i]? = some w ∧ x ∈ w.toRecord.head? :=
  Option.bind_eq_some_iff.mp h

theorem InProgress.exists_call (h : InProgress writers capacity attempted s) (hw : w ∈ writers) :
    ∃ w' ∈ s.calls, w.samplesIn attempted ++ w'.toRecord = w.toRecord := by
  obtain ⟨i, hi, rfl⟩ := List.mem_iff_getElem.mp hw
  have hlength : i < s.calls.length := by
    have htags := congrArg List.length h.tags
    simp only [List.length_map] at htags
    omega
  exact ⟨s.calls[i], List.getElem_mem hlength,
    h.own i _ _ (List.getElem?_eq_getElem hi) (List.getElem?_eq_getElem hlength)⟩

theorem InProgress.shared (h : InProgress writers capacity attempted s)
    (hnumber : ∀ x ∈ writers.flatMap toRecord, x.value.isNaN = false) :
    Shared writers capacity attempted s := by
  have hturn : ∀ i x, next? s i = some x →
      s.state.append x.value x.time x.writer = s.state.push x ∧
        (s.advance step i).state = (s.state.push x).toOption.getD s.state := by
    intro i x hx
    obtain ⟨w, hi, hhead⟩ := exists_of_next? hx
    have hmem : x ∈ w.toRecord := List.mem_of_mem_head? hhead
    have hnan : x.value.isNaN = false := by
      apply hnumber x
      rw [← h.perm.mem_iff]
      exact List.mem_append_right _
        (List.mem_flatMap.mpr ⟨w, List.mem_of_getElem? hi, hmem⟩)
    rw [Interleaving.advance_of_some hi]
    exact ⟨h.buffer.append_eq_push hnan, fst_step h.buffer hhead hnan⟩
  have hdone : (∀ w ∈ s.calls, w.pending = []) → ∀ w ∈ s.calls, w.toRecord = [] := by
    intro hdone w hw
    rw [toRecord, hdone w hw, List.map_nil]
  have hlength : (∀ w ∈ s.calls, w.pending = []) →
      attempted.length = (writers.map fun w => w.pending.length).sum := by
    intro hall
    have hperm := h.perm
    rw [List.flatMap_eq_nil_iff.mpr (hdone hall), List.append_nil] at hperm
    rw [hperm.length_eq, List.length_flatMap]
    simp only [toRecord, List.length_map]
  constructor
  case window => exact h.buffer.window
  case own =>
    intro w hw
    obtain ⟨w', -, hown⟩ := h.exists_call hw
    rw [h.buffer.window, ← hown]
    exact ((List.take_prefix capacity attempted).filter _).trans (List.prefix_append _ _)
  case recorded =>
    intro i x hx hroom
    obtain ⟨happend, hstate⟩ := hturn i x hx
    obtain ⟨b', hb'⟩ := h.buffer.exists_push (s := x) hroom
    rw [happend, hstate, hb']
    exact ⟨rfl, (SampleBuffer.extended_of_push hb').window⟩
  case refused =>
    intro i x hx hfull
    obtain ⟨happend, hstate⟩ := hturn i x hx
    rw [happend, hstate, h.buffer.push_of_full hfull]
    exact ⟨rfl, rfl⟩
  case length_window =>
    intro hall
    rw [h.buffer.window, List.length_take, hlength hall]
  case all =>
    intro hall hroom w hw
    obtain ⟨w', hw', hown⟩ := h.exists_call hw
    rw [hdone hall w' hw', List.append_nil] at hown
    rw [h.buffer.window, List.take_of_length_le (by rw [hlength hall]; exact hroom)]
    exact hown

/-- Whatever the order of their turns, writers with tags of their own who record numbers in a new
gauge find what came first, and each of them a front of its own samples. -/
theorem shared_run (hb : SampleBuffer.ofCapacity .gauge capacity = .ok b)
    (htags : (writers.map tag).Nodup)
    (hnumber : ∀ w ∈ writers, ∀ p ∈ w.pending, p.1.isNaN = false) (schedule : List Nat) :
    Shared writers capacity (attempts b writers schedule)
      (Interleaving.run step ⟨b, writers⟩ schedule) := by
  have hnumber' : ∀ x ∈ writers.flatMap toRecord, x.value.isNaN = false := by
    simp only [List.mem_flatMap, toRecord, List.mem_map]
    rintro x ⟨w, hw, p, hp, rfl⟩
    exact hnumber w hw p hp
  exact (inProgress_run hb htags hnumber' schedule).shared hnumber'

/-- Two writers with two values each, and room for three. -/
def rivals : List Writer :=
  [⟨1, [(.zero, .zero), (⟨0x3FF0000000000000⟩, .zero)], 0⟩,
    ⟨2, [(⟨0x4000000000000000⟩, .zero), (⟨0x4008000000000000⟩, .zero)], 0⟩]

theorem shared_run_rivals :
    ∃ b, SampleBuffer.ofCapacity .gauge 3 = .ok b ∧
      Shared rivals 3 (attempts b rivals [1, 0, 1, 0])
        (Interleaving.run step ⟨b, rivals⟩ [1, 0, 1, 0]) ∧
      (Interleaving.run step ⟨b, rivals⟩ [1, 0, 1, 0]).state.window.map Sample.writer
        = [2, 1, 2] := by
  refine ⟨⟨.gauge, 3, #[], by decide, by decide⟩, rfl, shared_run rfl ?_ ?_ _, ?_⟩
  · decide
  · decide +kernel
  · decide +kernel

end Writer

end Telemetry
