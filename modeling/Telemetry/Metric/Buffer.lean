import Telemetry.Metric.Kind
import Telemetry.Metric.Sample
import Telemetry.Number.Shortest

/-!
# Sample buffers

A buffer records the samples of one metric in the order of their arrival. It has a fixed capacity:
once full it refuses every further sample and keeps what it holds. A counter refuses values below
the last one, a timer negative values, and every buffer refuses NaN.
-/
namespace Telemetry

/-- The most bytes that one allocation can ask for. -/
def allocationLimit : Nat := 0x7FFFFFFFFFFFFFFF

/-- What is reported about an allocation beyond the limit. -/
def allocationRefusal : String :=
  "memory allocation failed because the computed capacity exceeded the collection's maximum"

/-- The samples of one metric, oldest first, never more than the capacity. -/
structure SampleBuffer where
  kind : Kind
  capacity : Nat
  samples : Array Sample
  capacity_pos : 0 < capacity
  size_le_capacity : samples.size ≤ capacity

namespace SampleBuffer

/-- An empty buffer, if the capacity is positive and can be allocated. -/
def ofCapacity (kind : Kind) (capacity : Nat) : Except Failure SampleBuffer :=
  if h : capacity = 0 then .error (.invalidArgs "buffer capacity must be > 0")
  else if allocationLimit < capacity * Sample.packedLength then
    .error (.allocation (toString capacity ++ " samples: " ++ allocationRefusal))
  else .ok ⟨kind, capacity, #[], Nat.pos_of_ne_zero h, Nat.zero_le _⟩

/-- The number of recorded samples. -/
def size (b : SampleBuffer) : Nat := b.samples.size

/-- The recorded samples, oldest first. -/
def window (b : SampleBuffer) : List Sample := b.samples.toList

/-- The value recorded last. -/
def lastValue? (b : SampleBuffer) : Option Double := b.samples.back?.map Sample.value

/-- Records a sample behind the others, if there is room. -/
def push (b : SampleBuffer) (s : Sample) : Except Failure SampleBuffer :=
  if h : b.samples.size < b.capacity then
    .ok { b with
      samples := b.samples.push s
      size_le_capacity := by rw [Array.size_push]; exact h }
  else .error (.bufferFull b.capacity)

/-- The failure of every attempt to record NaN. -/
def nanRefused : Failure := .invalidValue "NaN is not a sample value"

/-- What the kind of the metric has against a value, if anything. -/
def kindFailure? (b : SampleBuffer) (value : Double) : Option Failure :=
  match b.kind with
  | .counter =>
    match b.lastValue? with
    | some last =>
      if value.lt last then
        some (.invalidValue ("counter decreased from " ++ last.text ++ " to " ++ value.text))
      else none
    | none => none
  | .timer =>
    if value.lt .zero then some (.invalidValue ("timer value " ++ value.text ++ " is negative"))
    else none
  | .gauge => none

/-- Records a value. What its kind forbids is reported before a lack of room. -/
def append (b : SampleBuffer) (value time : Double) (writer : UInt64) :
    Except Failure SampleBuffer :=
  if value.isNaN then .error nanRefused
  else match b.kindFailure? value with
    | some failure => .error failure
    | none => b.push ⟨time, value, writer⟩

/-- Records the last value of a gauge changed by `delta`; an empty gauge starts from zero. -/
def appendDelta (b : SampleBuffer) (delta time : Double) (writer : UInt64) :
    Except Failure SampleBuffer :=
  if b.kind ≠ .gauge then
    .error (.invalidValue ("delta updates need a gauge, metric is " ++ b.kind.name))
  else if delta.isNaN then .error nanRefused
  else b.push ⟨time, b.lastValue?.getD .zero + delta, writer⟩

/-- The newest `count` samples, oldest first, or all of them if there are fewer. -/
def tail (b : SampleBuffer) (count : Nat) : List Sample :=
  (b.samples.extract (b.samples.size - count) b.samples.size).toList

/-- The newest samples behind bytes already written, packed as they stand in the buffer, and how many
they are. -/
def packTail (b : SampleBuffer) (count : Nat) (written : Bytes) : Bytes × Nat :=
  let start := b.samples.size - count
  let packed := b.samples.foldr (fun s rest =>
    s.time.toBytes ++ (s.value.toBytes ++ (Bytes.littleEndian 8 s.writer.toNat ++ rest)))
    [] b.samples.size start
  (written ++ packed, b.samples.size - start)

@[simp] theorem window_push {b b' : SampleBuffer} {s : Sample} (h : b.push s = .ok b') :
    b'.window = b.window ++ [s] := by
  unfold push at h
  split at h
  · cases h; simp [window]
  · cases h

theorem length_tail (b : SampleBuffer) (count : Nat) : (b.tail count).length = min count b.size := by
  rw [tail, Array.length_toList, Array.size_extract, size]
  omega

/-- Samples packed in the buffer are the same bytes as samples packed after they were taken out. -/
theorem packTail_eq (b : SampleBuffer) (count : Nat) (written : Bytes) :
    b.packTail count written = (written ++ Sample.packAll (b.tail count), (b.tail count).length) := by
  have hfold (samples : List Sample) : samples.foldr (fun s rest =>
      s.time.toBytes ++ (s.value.toBytes ++ (Bytes.littleEndian 8 s.writer.toNat ++ rest))) []
        = Sample.packAll samples := by
    induction samples with
    | nil => rfl
    | cons s samples ih =>
      simp only [List.foldr_cons, ih, Sample.packAll, List.flatMap_cons, Sample.pack,
        List.append_assoc]
  have hlength : b.samples.size - (b.samples.size - count) = (b.tail count).length := by
    rw [length_tail, size]
    omega
  rw [packTail, hlength, Array.foldr_eq_foldrM, Array.foldrM_start_stop, ← Array.foldr_eq_foldrM,
    ← Array.foldr_toList, hfold, tail]

/-- Every sample as a line with its value, time and writer. -/
def listing (b : SampleBuffer) : String :=
  String.join (b.window.map fun s =>
    s.value.text ++ ", " ++ s.time.text ++ ", " ++ toString s.writer.toNat ++ "\n")

end SampleBuffer

end Telemetry
