import Telemetry.Interleaving
import Telemetry.Metric.Buffer

/-!
# Concurrent writers

Several writers record their values in one buffer, each in its own order and under its own tag. A
value that the buffer refuses is lost, and the writer goes on with its next one. The tags of tasks
have the highest bit set, those of threads do not.
-/
namespace Telemetry

/-- The bit that tells the tags of tasks from those of threads. -/
def taskTagBit : UInt64 := 0x8000000000000000

/-- The tag of the `n`-th thread. -/
def threadTag (n : Nat) : UInt64 := UInt64.ofNat (n % 0x8000000000000000)

/-- The tag of the `n`-th task. -/
def taskTag (n : Nat) : UInt64 := threadTag n ||| taskTagBit

/-- Whether a tag is that of a task. -/
def isTaskTag (tag : UInt64) : Bool := tag &&& taskTagBit != 0

/-- A writer and the values that it has still to record. -/
structure Writer where
  tag : UInt64
  /-- The values, each with the time at which it is recorded. -/
  pending : List (Double × Double)
  /-- The number of values that the buffer refused. -/
  refused : Nat := 0

/-- A writer records its next value. -/
def Writer.step (b : SampleBuffer) (w : Writer) : SampleBuffer × Writer :=
  match w.pending with
  | [] => (b, w)
  | (value, time) :: rest =>
    match b.append value time w.tag with
    | .ok b => (b, { w with pending := rest })
    | .error _ => (b, { w with pending := rest, refused := w.refused + 1 })

/-- The writers record in turns, `rounds` times each. -/
def Writer.takeTurns (b : SampleBuffer) (writers : List Writer) (rounds : Nat) :
    Interleaving SampleBuffer Writer :=
  Interleaving.run Writer.step ⟨b, writers⟩
    (List.replicate rounds (List.range writers.length)).flatten

/-- The samples that a writer left in a window. -/
def Writer.samplesIn (w : Writer) (window : List Sample) : List Sample :=
  window.filter fun s => s.writer = w.tag

end Telemetry
