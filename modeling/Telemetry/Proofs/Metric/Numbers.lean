import Telemetry.Proofs.Metric.History
import Telemetry.Proofs.Number.Arithmetic
import Mathlib

/-!
# Where NaN comes from

NaN is refused as a value and as a change. What is recorded for a change is a sum, though, and the sum
of two infinities of different signs is NaN. Nothing else brings NaN into a buffer, and no later attempt
takes it out again.

## Main definitions

* `SampleBuffer.Cancels`: a change that takes a gauge from one infinity by the other.

## Main statements

* `SampleBuffer.isNaN_sampleFor_iff`: which attempt records the first NaN.
* `SampleBuffer.isNumber_or_cancels_performAll`: which runs end with NaN in the window.
-/
namespace Telemetry

/-- Infinities of different signs. -/
def Double.Opposite (x y : Double) : Prop :=
  x = .infinity ∧ y = .negativeInfinity ∨ x = .negativeInfinity ∧ y = .infinity

theorem Double.isNaN_add_iff_opposite {x y : Double} (hx : x.isNaN = false) (hy : y.isNaN = false) :
    (x + y).isNaN = true ↔ x.Opposite y := by
  rw [isNaN_add_iff hx hy, Opposite]
  constructor
  · rintro ⟨_ | _, rfl, rfl⟩
    · exact .inr ⟨rfl, rfl⟩
    · exact .inl ⟨rfl, rfl⟩
  · rintro (⟨rfl, rfl⟩ | ⟨rfl, rfl⟩)
    · exact ⟨.positive, rfl, rfl⟩
    · exact ⟨.negative, rfl, rfl⟩

namespace SampleBuffer

variable {b b' : SampleBuffer} {a : Attempt} {delta time : Double} {writer : UInt64}
  {attempts front : List Attempt}

/-- Whether all values in the window are numbers. -/
def IsNumeric (b : SampleBuffer) : Prop := ∀ s ∈ b.window, s.value.isNaN = false

/-- Whether a change by `delta` is recorded, and leaves NaN of an infinity. -/
structure Cancels (b : SampleBuffer) (delta : Double) : Prop where
  kind : b.kind = .gauge
  room : b.window.length < b.capacity
  opposite : ∃ last, b.lastValue? = some last ∧ last.Opposite delta

/-! ## One attempt -/

theorem exists_appendDelta_iff (b : SampleBuffer) (delta time : Double) (writer : UInt64) :
    (∃ b', b.appendDelta delta time writer = .ok b') ↔
      b.kind = .gauge ∧ delta.isNaN = false ∧ b.window.length < b.capacity := by
  unfold appendDelta
  by_cases hkind : b.kind = .gauge
  · cases hnan : delta.isNaN with
    | true => simp [hkind]
    | false => simpa [hkind] using exists_push_iff
  · simp [hkind]

theorem isNaN_of_opposite_right {last : Double} (h : last.Opposite delta) :
    delta.isNaN = false := by
  rcases h with ⟨-, rfl⟩ | ⟨-, rfl⟩ <;> decide

theorem IsNumeric.isNaN_last (h : b.IsNumeric) : (b.lastValue?.getD .zero).isNaN = false := by
  rw [lastValue?_eq]
  cases hlast : b.window.getLast? with
  | none => exact isNaN_zero
  | some s => exact h s (List.mem_of_getLast? hlast)

/-- An attempt that is not refused brings the first NaN into the window exactly if it is a change from
one infinity by the other. -/
theorem isNaN_sampleFor_iff (h : b.IsNumeric) (ha : a.perform b = .ok b') :
    (a.sampleFor b.window).value.isNaN = true ↔
      ∃ delta time writer, a = .change delta time writer ∧ b.Cancels delta := by
  cases a with
  | append value time writer =>
    have hnan := (admits_of_append ha).1
    simp [Attempt.sampleFor, hnan]
  | change delta time writer =>
    obtain ⟨hkind, hnan, hroom⟩ := (exists_appendDelta_iff b delta time writer).mp ⟨b', ha⟩
    simp only [Attempt.sampleFor, ← lastValue?_eq,
      Double.isNaN_add_iff_opposite h.isNaN_last hnan]
    constructor
    · intro hopposite
      refine ⟨delta, time, writer, rfl, hkind, hroom, ?_⟩
      cases hlast : b.lastValue? with
      | none =>
        rw [hlast] at hopposite
        rcases hopposite with ⟨hzero, -⟩ | ⟨hzero, -⟩ <;> exact absurd hzero (by decide)
      | some last => exact ⟨last, rfl, by simpa [hlast] using hopposite⟩
    · rintro ⟨_, _, _, hchange, -, -, last, hlast, hopposite⟩
      cases hchange
      simpa [hlast] using hopposite

theorem isNumeric_extended (h : b.IsNumeric) {s : Sample} (hb : b.Extended s b') :
    b'.IsNumeric ↔ s.value.isNaN = false := by
  rw [IsNumeric, hb.window, List.forall_mem_append, List.forall_mem_singleton]
  exact and_iff_right h

/-! ## Many attempts -/

theorem performAll_append (b : SampleBuffer) (front attempts : List Attempt) :
    (b.performAll (front ++ attempts)).2 = ((b.performAll front).2.performAll attempts).2 := by
  induction front generalizing b with
  | nil => rfl
  | cons a front ih =>
    cases ha : a.perform b with
    | ok b' => simp only [List.cons_append, performAll_of_ok ha, ih]
    | error failure => simp only [List.cons_append, performAll_of_error ha, ih]

/-- What is in the window stays there. -/
theorem mem_window_performAll {s : Sample} (h : s ∈ b.window) (attempts : List Attempt) :
    s ∈ (b.performAll attempts).2.window := by
  rw [window_performAll]
  exact List.mem_append_left _ h

/-- If there is NaN at the end of a run that begins without, some attempt brought it in. -/
theorem exists_cancels (h : b.IsNumeric) (hend : ¬ (b.performAll attempts).2.IsNumeric) :
    ∃ front delta time writer rest, attempts = front ++ .change delta time writer :: rest ∧
      (b.performAll front).2.Cancels delta := by
  induction attempts generalizing b with
  | nil => exact absurd h hend
  | cons a attempts ih =>
    cases ha : a.perform b with
    | error failure =>
      rw [performAll_of_error ha] at hend
      obtain ⟨front, delta, time, writer, rest, rfl, hcancels⟩ := ih h hend
      refine ⟨a :: front, delta, time, writer, rest, rfl, ?_⟩
      rwa [performAll_of_error ha]
    | ok b' =>
      rw [performAll_of_ok ha] at hend
      have hextended := extended_of_perform ha
      by_cases hnext : b'.IsNumeric
      · obtain ⟨front, delta, time, writer, rest, rfl, hcancels⟩ := ih hnext hend
        refine ⟨a :: front, delta, time, writer, rest, rfl, ?_⟩
        rwa [performAll_of_ok ha]
      · rw [isNumeric_extended h hextended, Bool.not_eq_false] at hnext
        obtain ⟨delta, time, writer, rfl, hcancels⟩ := (isNaN_sampleFor_iff h ha).mp hnext
        exact ⟨[], delta, time, writer, attempts, rfl, hcancels⟩

/-- A change that leaves NaN of an infinity is not undone by what comes behind it. -/
theorem not_isNumeric_of_cancels (h : (b.performAll front).2.Cancels delta) (time : Double)
    (writer : UInt64) (rest : List Attempt) :
    ¬ (b.performAll (front ++ .change delta time writer :: rest)).2.IsNumeric := by
  obtain ⟨hkind, hroom, last, hlast, hopposite⟩ := h
  obtain ⟨b', hb'⟩ := (exists_appendDelta_iff (b.performAll front).2 delta time writer).mpr
    ⟨hkind, isNaN_of_opposite_right hopposite, hroom⟩
  have ha : (Attempt.change delta time writer).perform (b.performAll front).2 = .ok b' := hb'
  rw [performAll_append, performAll_of_ok ha]
  intro hnumeric
  have hadded : (Attempt.change delta time writer).sampleFor (b.performAll front).2.window
      ∈ b'.window := by
    rw [(extended_of_perform ha).window]
    simp
  have hnan := hnumeric _ (mem_window_performAll hadded rest)
  simp only [Attempt.sampleFor, ← lastValue?_eq, hlast, Option.getD_some] at hnan
  rcases hopposite with ⟨rfl, rfl⟩ | ⟨rfl, rfl⟩ <;> exact absurd hnan (by decide)

/-- Whatever a new buffer is given, all its values are numbers, unless it is that of a gauge, which at
some time had room left, had an infinity as its last value, and was changed by the infinity of the
other sign. -/
theorem isNumber_or_cancels_performAll {kind : Kind} {capacity : Nat}
    (hb : ofCapacity kind capacity = .ok b) (attempts : List Attempt) :
    (kind ≠ .gauge → ∀ s ∈ (b.performAll attempts).2.window, s.value.isNaN = false) ∧
      ((∀ s ∈ (b.performAll attempts).2.window, s.value.isNaN = false) ↔
        ¬ ∃ front delta time writer rest, attempts = front ++ .change delta time writer :: rest ∧
          (b.performAll front).2.Cancels delta) := by
  obtain ⟨hkind, -, hempty, -⟩ := new_of_ofCapacity hb
  have hstart : b.IsNumeric := by simp [IsNumeric, hempty]
  have hiff : (b.performAll attempts).2.IsNumeric ↔
      ¬ ∃ front delta time writer rest, attempts = front ++ .change delta time writer :: rest ∧
        (b.performAll front).2.Cancels delta := by
    constructor
    · rintro hnumeric ⟨front, delta, time, writer, rest, rfl, hcancels⟩
      exact not_isNumeric_of_cancels hcancels time writer rest hnumeric
    · intro hnone
      by_contra hend
      exact hnone (exists_cancels hstart hend)
  refine ⟨fun hgauge => hiff.mpr ?_, hiff⟩
  rintro ⟨front, delta, time, writer, rest, -, hcancels⟩
  have hkept : (b.performAll front).2.kind = kind := performAll_keeps (P := fun b' => b'.kind = kind)
    (fun _ _ _ hc hok => (extended_of_perform hok).kind.trans hc) hkind front
  exact hgauge (hkept.symm.trans hcancels.kind)

/-- A gauge is raised by infinity, and then lowered by it. -/
theorem isNumber_or_cancels_performAll_infinite :
    ∃ b, ofCapacity .gauge 4 = .ok b ∧
      let attempts : List Attempt :=
        [.change .infinity .zero 7, .change .negativeInfinity .zero 7]
      (b.performAll attempts).2.window = [⟨.zero, .infinity, 7⟩, ⟨.zero, .nan, 7⟩] ∧
        ¬ ∀ s ∈ (b.performAll attempts).2.window, s.value.isNaN = false := by
  have hwindow : (performAll ⟨.gauge, 4, #[], by decide, by decide⟩
      [.change .infinity .zero 7, .change .negativeInfinity .zero 7]).2.window
        = [⟨.zero, .infinity, 7⟩, ⟨.zero, .nan, 7⟩] := by decide +kernel
  refine ⟨⟨.gauge, 4, #[], by decide, by decide⟩, rfl, hwindow, ?_⟩
  rw [(@isNumber_or_cancels_performAll _ .gauge 4 rfl _).2, not_not]
  exact ⟨[.change .infinity .zero 7], .negativeInfinity, .zero, 7, [], rfl,
    ⟨rfl, by decide +kernel, .infinity, by decide +kernel, .inl ⟨rfl, rfl⟩⟩⟩

end SampleBuffer

end Telemetry
