import Telemetry.Metric.Buffer
import Telemetry.Proofs.Number.Order
import Mathlib

/-!
# What a buffer remembers

A buffer is given values and changes, and refuses some of them. Its window is the list of the samples
that it did not refuse. As counters and timers only ever compare a value with the last one or with
zero, that their whole windows are in order follows from the order of the numbers.

## Main statements

* `SampleBuffer.exists_append_iff`: when a value is recorded.
* `SampleBuffer.InOrder.perform`: the order of a window is kept.
* `SampleBuffer.window_performAll`: what is in the window after any attempts.
-/
namespace Telemetry

/-- Whether a kind of metric admits a value behind a window. -/
def Kind.Admits (kind : Kind) (window : List Sample) (value : Double) : Prop :=
  match kind with
  | .counter => ∀ last ∈ window.getLast?, value.lt last.value = false
  | .timer => value.lt .zero = false
  | .gauge => True

namespace SampleBuffer

variable {b b' : SampleBuffer} {s : Sample} {value delta time : Double} {writer : UInt64}
  {failure : Failure}

/-! ## One attempt -/

theorem length_window (b : SampleBuffer) : b.window.length = b.samples.size := Array.length_toList

theorem length_window_le (b : SampleBuffer) : b.window.length ≤ b.capacity :=
  b.length_window ▸ b.size_le_capacity

theorem lastValue?_eq (b : SampleBuffer) : b.lastValue? = b.window.getLast?.map Sample.value := by
  rw [lastValue?, window, Array.getLast?_toList]

/-- The buffer has one more sample, and is the same otherwise. -/
structure Extended (b : SampleBuffer) (s : Sample) (b' : SampleBuffer) : Prop where
  kind : b'.kind = b.kind
  capacity : b'.capacity = b.capacity
  window : b'.window = b.window ++ [s]

theorem exists_push_iff : (∃ b', b.push s = .ok b') ↔ b.window.length < b.capacity := by
  rw [length_window, push]
  split
  · simp [*]
  · simp [*]

theorem extended_of_push (h : b.push s = .ok b') : b.Extended s b' := by
  refine ⟨?_, ?_, window_push h⟩
  · unfold push at h
    split at h <;> cases h
    rfl
  · unfold push at h
    split at h <;> cases h
    rfl

theorem kindFailure?_eq_none_iff : b.kindFailure? value = none ↔ b.kind.Admits b.window value := by
  rw [kindFailure?, lastValue?_eq]
  cases b.kind with
  | counter => cases hlast : b.window.getLast? <;> simp [Kind.Admits, hlast]
  | timer => simp [Kind.Admits]
  | gauge => simp [Kind.Admits]

theorem exists_invalidValue_of_kindFailure? (h : b.kindFailure? value = some failure) :
    ∃ text, failure = .invalidValue text := by
  unfold kindFailure? at h
  split at h
  · split at h
    · split at h
      · exact ⟨_, (Option.some.inj h).symm⟩
      · cases h
    · cases h
  · split at h
    · exact ⟨_, (Option.some.inj h).symm⟩
    · cases h
  · cases h

theorem append_of_admits (hnan : value.isNaN = false) (h : b.kind.Admits b.window value) :
    b.append value time writer = b.push ⟨time, value, writer⟩ := by
  simp [append, hnan, kindFailure?_eq_none_iff.mpr h]

/-- What a kind forbids is reported as such, whether there is room or not. -/
theorem append_of_not_admits (hnan : value.isNaN = false) (h : ¬ b.kind.Admits b.window value)
    (time : Double) (writer : UInt64) :
    ∃ text, b.append value time writer = .error (.invalidValue text) := by
  obtain ⟨failure, hfailure⟩ :=
    Option.ne_none_iff_exists'.mp (mt kindFailure?_eq_none_iff.mp h)
  obtain ⟨text, rfl⟩ := exists_invalidValue_of_kindFailure? hfailure
  exact ⟨text, by simp [append, hnan, hfailure]⟩

theorem admits_of_append (h : b.append value time writer = .ok b') :
    value.isNaN = false ∧ b.kind.Admits b.window value ∧ b.push ⟨time, value, writer⟩ = .ok b' := by
  cases hnan : value.isNaN with
  | true => simp [append, hnan] at h
  | false =>
    by_cases hadmits : b.kind.Admits b.window value
    · rw [append_of_admits hnan hadmits] at h
      exact ⟨rfl, hadmits, h⟩
    · obtain ⟨text, htext⟩ := append_of_not_admits hnan hadmits time writer
      rw [h] at htext
      cases htext

/-- A value is recorded if it is a number that the kind admits and there is room for it. -/
theorem exists_append_iff : (∃ b', b.append value time writer = .ok b') ↔
    value.isNaN = false ∧ b.kind.Admits b.window value ∧ b.window.length < b.capacity := by
  constructor
  · rintro ⟨b', h⟩
    obtain ⟨hnan, hadmits, hpush⟩ := admits_of_append h
    exact ⟨hnan, hadmits, exists_push_iff.mp ⟨b', hpush⟩⟩
  · rintro ⟨hnan, hadmits, hroom⟩
    rw [append_of_admits hnan hadmits]
    exact exists_push_iff.mpr hroom

theorem isGauge_of_appendDelta (h : b.appendDelta delta time writer = .ok b') :
    b.kind = .gauge ∧ b.push ⟨time, b.lastValue?.getD .zero + delta, writer⟩ = .ok b' := by
  unfold appendDelta at h
  split at h
  · cases h
  · rename_i hkind
    split at h
    · cases h
    · exact ⟨not_not.mp hkind, h⟩

/-! ## The order of a window -/

/-- Whether the values of a counter never fall and those of a timer are not negative. -/
structure InOrder (b : SampleBuffer) : Prop where
  isNumber : b.kind ≠ .gauge → ∀ s ∈ b.window, s.value.isNaN = false
  counter : b.kind = .counter → b.window.Pairwise fun s t => s.value.le t.value = true
  timer : b.kind = .timer → ∀ s ∈ b.window, Double.zero.le s.value = true

theorem isNaN_zero : Double.zero.isNaN = false := by decide

theorem inOrder_of_gauge (h : b.kind = .gauge) : b.InOrder where
  isNumber hne := absurd h hne
  counter hkind := by rw [h] at hkind; cases hkind
  timer hkind := by rw [h] at hkind; cases hkind

/-- The last value of a counter is at least every other one, so what is not below the last is not
below any. -/
theorem InOrder.le_of_admits (h : b.InOrder) (hkind : b.kind = .counter)
    (hnan : value.isNaN = false) (hadmits : b.kind.Admits b.window value) (hs : s ∈ b.window) :
    s.value.le value = true := by
  have hnumber := h.isNumber (by rw [hkind]; decide)
  have hpairs := h.counter hkind
  rw [hkind] at hadmits
  rcases List.eq_nil_or_concat' b.window with hnil | ⟨front, last, hsplit⟩
  · rw [hnil] at hs
    cases hs
  · rw [hsplit] at hs hpairs hadmits hnumber
    have hlast : last.value.le value = true :=
      (Double.not_lt_iff (hnumber last (by simp)) hnan).mp (hadmits last (by simp))
    rcases List.mem_append.mp hs with hfront | hs
    · exact Double.le_trans ((List.pairwise_append.mp hpairs).2.2 s hfront last (by simp)) hlast
    · rw [List.mem_singleton.mp hs]
      exact hlast

theorem InOrder.append (h : b.InOrder) (ha : b.append value time writer = .ok b') : b'.InOrder := by
  obtain ⟨hnan, hadmits, hpush⟩ := admits_of_append ha
  obtain ⟨hkind, -, hwindow⟩ := extended_of_push hpush
  refine ⟨fun hgauge => ?_, fun hcounter => ?_, fun htimer => ?_⟩
  · rw [hkind] at hgauge
    rw [hwindow, List.forall_mem_append]
    exact ⟨h.isNumber hgauge, by simpa using hnan⟩
  · rw [hkind] at hcounter
    rw [hwindow, List.pairwise_append]
    refine ⟨h.counter hcounter, List.pairwise_singleton _ _, fun s hs t ht => ?_⟩
    rw [List.mem_singleton.mp ht]
    exact h.le_of_admits hcounter hnan hadmits hs
  · rw [hkind] at htimer
    rw [htimer] at hadmits
    rw [hwindow, List.forall_mem_append]
    exact ⟨h.timer htimer, by simpa using (Double.not_lt_iff isNaN_zero hnan).mp hadmits⟩

/-! ## Many attempts -/

/-- An attempt to record something. -/
inductive Attempt where
  /-- To record a value. -/
  | append (value time : Double) (writer : UInt64)
  /-- To record the last value changed by something. -/
  | change (delta time : Double) (writer : UInt64)

namespace Attempt

/-- The buffer behind an attempt that it does not refuse. -/
def perform (b : SampleBuffer) : Attempt → Except Failure SampleBuffer
  | append value time writer => b.append value time writer
  | change delta time writer => b.appendDelta delta time writer

/-- The sample that an attempt is to add to a window. -/
def sampleFor (window : List Sample) : Attempt → Sample
  | append value time writer => ⟨time, value, writer⟩
  | change delta time writer =>
    ⟨time, (window.getLast?.map Sample.value).getD .zero + delta, writer⟩

end Attempt

variable {a : Attempt}

/-- An attempt that is not refused adds its sample. -/
theorem extended_of_perform (h : a.perform b = .ok b') : b.Extended (a.sampleFor b.window) b' := by
  cases a with
  | append value time writer => exact extended_of_push (admits_of_append h).2.2
  | change delta time writer =>
    have hpush := (isGauge_of_appendDelta h).2
    rw [lastValue?_eq] at hpush
    exact extended_of_push hpush

theorem InOrder.perform (h : b.InOrder) (ha : a.perform b = .ok b') : b'.InOrder := by
  cases a with
  | append value time writer => exact h.append ha
  | change delta time writer =>
    obtain ⟨hgauge, hpush⟩ := isGauge_of_appendDelta ha
    exact inOrder_of_gauge ((extended_of_push hpush).kind.trans hgauge)

/-- What becomes of attempts, one after the other, and the buffer behind them: an attempt either adds
a sample or is refused, and then the next one finds the same buffer. -/
def performAll (b : SampleBuffer) : List Attempt → List (Except Failure Sample) × SampleBuffer
  | [] => ([], b)
  | a :: attempts =>
    match a.perform b with
    | .ok b' =>
      let (outcomes, last) := performAll b' attempts
      (.ok (a.sampleFor b.window) :: outcomes, last)
    | .error failure =>
      let (outcomes, last) := performAll b attempts
      (.error failure :: outcomes, last)

theorem performAll_of_ok (h : a.perform b = .ok b') (attempts : List Attempt) :
    b.performAll (a :: attempts)
      = (.ok (a.sampleFor b.window) :: (b'.performAll attempts).1, (b'.performAll attempts).2) := by
  rw [performAll, h]

theorem performAll_of_error (h : a.perform b = .error failure) (attempts : List Attempt) :
    b.performAll (a :: attempts)
      = (.error failure :: (b.performAll attempts).1, (b.performAll attempts).2) := by
  rw [performAll, h]

/-- What every attempt keeps holds after any attempts. -/
theorem performAll_keeps {P : SampleBuffer → Prop}
    (hP : ∀ (b : SampleBuffer) (a : Attempt) (b' : SampleBuffer), P b → a.perform b = .ok b' → P b')
    (h : P b) (attempts : List Attempt) : P (b.performAll attempts).2 := by
  induction attempts generalizing b with
  | nil => exact h
  | cons a attempts ih =>
    cases ha : a.perform b with
    | ok b' =>
      rw [performAll_of_ok ha]
      exact ih (hP b a b' h ha)
    | error failure =>
      rw [performAll_of_error ha]
      exact ih h

/-- The window grows by the samples that are not refused, in the order of the attempts. -/
theorem window_performAll (b : SampleBuffer) (attempts : List Attempt) :
    (b.performAll attempts).2.window
      = b.window ++ (b.performAll attempts).1.filterMap Except.toOption := by
  induction attempts generalizing b with
  | nil => exact (List.append_nil _).symm
  | cons a attempts ih =>
    cases ha : a.perform b with
    | ok b' =>
      simp only [performAll_of_ok ha, List.filterMap_cons, Except.toOption, ih,
        (extended_of_perform ha).window, List.append_assoc, List.singleton_append]
    | error failure => simp only [performAll_of_error ha, List.filterMap_cons, Except.toOption, ih]

/-- A new buffer is empty. There is none only if the capacity is beyond what can be allocated. -/
theorem ofCapacity_cases (kind : Kind) {capacity : Nat} (hcapacity : 0 < capacity) :
    (∃ failure, ofCapacity kind capacity = .error failure ∧
      allocationLimit < capacity * Sample.packedLength) ∨
    ∃ b, ofCapacity kind capacity = .ok b ∧ b.kind = kind ∧ b.capacity = capacity ∧
      b.window = [] := by
  unfold ofCapacity
  rw [dif_neg hcapacity.ne']
  split
  · exact .inl ⟨_, rfl, ‹_›⟩
  · exact .inr ⟨_, rfl, rfl, rfl, rfl⟩

theorem new_of_ofCapacity {kind : Kind} {capacity : Nat} (h : ofCapacity kind capacity = .ok b) :
    b.kind = kind ∧ b.capacity = capacity ∧ b.window = [] ∧
      capacity * Sample.packedLength ≤ allocationLimit := by
  unfold ofCapacity at h
  split_ifs at h with hzero hlimit
  cases h
  exact ⟨rfl, rfl, rfl, Nat.le_of_not_lt hlimit⟩

/-- What is in a buffer after any attempts, and what it says to the next one. -/
structure Remembers (kind : Kind) (capacity : Nat) (outcomes : List (Except Failure Sample))
    (b : SampleBuffer) : Prop where
  /-- The window is the list of the samples that were not refused. -/
  window : b.window = outcomes.filterMap Except.toOption
  length_le : b.window.length ≤ capacity
  /-- Every further attempt adds its sample or changes nothing. -/
  next : ∀ a : Attempt, (b.performAll [a]).2.window
    = match a.perform b with
      | .ok _ => b.window ++ [a.sampleFor b.window]
      | .error _ => b.window
  exists_append_iff : ∀ (value time : Double) (writer : UInt64),
    (∃ b', b.append value time writer = .ok b') ↔
      value.isNaN = false ∧ kind.Admits b.window value ∧ b.window.length < capacity
  /-- Whether there is room does not matter here. -/
  invalidValue : ∀ (value time : Double) (writer : UInt64), value.isNaN = false →
    ¬ kind.Admits b.window value → ∃ text, b.append value time writer = .error (.invalidValue text)
  counter : kind = .counter → b.window.Pairwise fun s t => s.value.le t.value = true
  timer : kind = .timer → ∀ s ∈ b.window, Double.zero.le s.value = true

/-- A buffer holds what it did not refuse, in order, whatever it was given. A buffer that is not there
is one that cannot be allocated. -/
theorem remembers_performAll (kind : Kind) {capacity : Nat} (hcapacity : 0 < capacity)
    (attempts : List Attempt) :
    match ofCapacity kind capacity with
    | .error _ => allocationLimit < capacity * Sample.packedLength
    | .ok b => Remembers kind capacity (b.performAll attempts).1 (b.performAll attempts).2 := by
  rcases ofCapacity_cases kind hcapacity with ⟨failure, hnone, hlimit⟩ | ⟨b, hb, rfl, rfl, hempty⟩
  · rw [hnone]
    exact hlimit
  · rw [hb]
    have hstart : b.InOrder := by
      refine ⟨fun _ => ?_, fun _ => ?_, fun _ => ?_⟩ <;> simp [hempty]
    obtain ⟨horder, hkind, hcap⟩ := performAll_keeps
      (P := fun b' => b'.InOrder ∧ b'.kind = b.kind ∧ b'.capacity = b.capacity)
      (fun c a c' hc hok => ⟨hc.1.perform hok, (extended_of_perform hok).kind.trans hc.2.1,
        (extended_of_perform hok).capacity.trans hc.2.2⟩) ⟨hstart, rfl, rfl⟩ attempts
    refine ⟨?_, ?_, fun a => ?_, fun value time writer => ?_, fun value time writer hnan => ?_, ?_, ?_⟩
    · rw [window_performAll, hempty, List.nil_append]
    · exact hcap ▸ length_window_le _
    · cases ha : a.perform (b.performAll attempts).2 with
      | ok b' =>
        rw [performAll_of_ok ha]
        exact (extended_of_perform ha).window
      | error failure => rw [performAll_of_error ha, performAll]
    · rw [← hkind, ← hcap]
      exact exists_append_iff
    · rw [← hkind]
      exact fun hadmits => append_of_not_admits hnan hadmits time writer
    · rw [← hkind]
      exact horder.counter
    · rw [← hkind]
      exact horder.timer

/-- A counter with room for two samples is given 1, then 0.5, which is below 1, then 2, and then 3,
for which there is no room. -/
theorem remembers_performAll_counter :
    ∃ b, ofCapacity .counter 2 = .ok b ∧
      let attempts : List Attempt := [.append ⟨0x3FF0000000000000⟩ .zero 7,
        .append ⟨0x3FE0000000000000⟩ .zero 7, .append ⟨0x4000000000000000⟩ .zero 8,
        .append ⟨0x4008000000000000⟩ .zero 7]
      Remembers .counter 2 (b.performAll attempts).1 (b.performAll attempts).2 ∧
      (b.performAll attempts).2.window
        = [⟨.zero, ⟨0x3FF0000000000000⟩, 7⟩, ⟨.zero, ⟨0x4000000000000000⟩, 8⟩] :=
  ⟨⟨.counter, 2, #[], by decide, by decide⟩, rfl,
    remembers_performAll .counter Nat.two_pos _, by decide +kernel⟩

end SampleBuffer

end Telemetry
