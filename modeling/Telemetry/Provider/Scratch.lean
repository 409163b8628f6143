import Telemetry.Provider.Answer

/-!
# Scratch buffers

A provider packs what is fetched from it in buffers that it keeps from one request to the next. A
request takes a buffer from the pool, or a new one if none is waiting, packs its samples behind
whatever the buffer holds, sends the bytes off and gives the buffer back. `serveValue` answers
requests in this way; what is answered is described by `answerValue`, which knows no buffers.

## Main definitions

* `Scratch`, `ScratchPool`: a buffer, and the buffers that are not in use.
* `Desk`: a provider with its pool.
* `serveValue`: the frames for whatever a client sent, and what becomes of the pools.
-/
namespace Telemetry

/-! ## Buffers -/

/-- A buffer in which samples are packed. -/
structure Scratch where
  written : Bytes
  /-- The number of bytes for which there is room. -/
  capacity : Nat
deriving DecidableEq, Repr

namespace Scratch

/-- A buffer in which nothing is written. -/
def ofCapacity (capacity : Nat) : Scratch := ⟨[], capacity⟩

/-- Packs the newest samples behind what is written, and says how many they are. A buffer that is too
small grows; the allocator may give it `spare` bytes more than are needed. -/
def pack (s : Scratch) (b : SampleBuffer) (count spare : Nat) : Nat × Scratch :=
  let (written, actual) := b.packTail count s.written
  (actual,
    { written := written
      capacity := if written.length ≤ s.capacity then s.capacity else written.length + spare })

/-- Takes out everything that is written, together with its room. -/
def split (s : Scratch) : Bytes × Scratch :=
  (s.written, { written := [], capacity := s.capacity - s.written.length })

/-- The buffer with nothing written and the same room. -/
def clear (s : Scratch) : Scratch := { s with written := [] }

end Scratch

/-! ## Pools -/

/-- The buffers of a provider that are not in use. -/
structure ScratchPool where
  /-- The buffers that wait, the one that is taken next first. -/
  waiting : List Scratch
  /-- The number of buffers for which there is a place. -/
  places : Nat
  /-- The room of a new buffer. -/
  bufferCapacity : Nat
  length_waiting_le : waiting.length ≤ places

namespace ScratchPool

/-- A pool of new buffers. There is a place for one buffer even if the pool starts with none. -/
def ofSize (size bufferCapacity : Nat) : ScratchPool where
  waiting := List.replicate size (.ofCapacity bufferCapacity)
  places := max size 1
  bufferCapacity := bufferCapacity
  length_waiting_le := by rw [List.length_replicate]; exact Nat.le_max_left size 1

/-- The pool of a provider: buffers for 4096 samples. -/
def standard : ScratchPool := ofSize 64 (4096 * Sample.packedLength)

/-- Takes a buffer, or makes one if none is waiting. -/
def acquire (pool : ScratchPool) : Scratch × ScratchPool :=
  match h : pool.waiting with
  | [] => (.ofCapacity pool.bufferCapacity, pool)
  | s :: waiting =>
    (s, { pool with
      waiting := waiting
      length_waiting_le := by
        have hle := pool.length_waiting_le
        rw [h, List.length_cons] at hle
        omega })

/-- Takes a buffer back. One that has grown too large is dropped, and so is one without a place. -/
def release (pool : ScratchPool) (s : Scratch) : ScratchPool :=
  if pool.bufferCapacity * 4 < s.capacity then pool
  else if h : pool.waiting.length < pool.places then
    { pool with
      waiting := pool.waiting ++ [s.clear]
      length_waiting_le := by rw [List.length_append]; exact h }
  else pool

end ScratchPool

/-! ## Desks -/

/-- A provider and the buffers in which it packs. -/
structure Desk where
  provider : Provider
  pool : ScratchPool := .standard

namespace Desk

/-- The newest samples of a metric, packed in a buffer of the pool: a push, if there are any, and the
reply. -/
def deliver (d : Desk) (m : Metric) (count : Nat) (region : RegionDescriptor) (spare : Nat) :
    List Frame × Desk :=
  let (scratch, pool) := d.pool.acquire
  let (actual, scratch) := scratch.pack m.buffer (d.provider.wanted count region) spare
  let (payload, scratch) := scratch.split
  let reply := Frame.fetch .success (Int64.ofNat actual) m.name m.ns
  (if actual = 0 then [reply] else [.bulk ⟨region.id, payload⟩, reply],
    { d with pool := pool.release scratch })

/-- The frames for a fetch. No buffer is taken before the request has passed every check. -/
def answerFetch (d : Desk) (id : MetricId) (count : Int64) (region : RegionDescriptor)
    (token : Option String) (spare : Nat) : List Frame × Desk :=
  match d.provider.authorize token with
  | .error failure => ([.fetchFailed failure.status], d)
  | .ok () =>
    if count < 0 then ([.fetchFailed .invalidArgs], d)
    else match d.provider.find? id with
      | none => ([.fetchFailed .invalidMetric], d)
      | some m => d.deliver m count.toInt.toNat region spare

end Desk

/-- Desks by the ids of their providers. -/
abbrev Desks := UInt16 → Option Desk

namespace Desks

/-- The providers at the desks. -/
def provider? (desks : Desks) (number : UInt16) : Option Provider :=
  (desks number).map Desk.provider

/-- The desks after one of them has changed. -/
def set (desks : Desks) (number : UInt16) (d : Desk) : Desks :=
  fun other => if other = number then some d else desks other

end Desks

/-- The frames for a request to one of the providers, and the desks behind it. -/
def Request.serve (desks : Desks) (r : Request) (spare : Nat) : List Frame × Desks :=
  match desks r.provider, r with
  | none, _ => ([r.unknownProvider], desks)
  | some d, list _ maxIds token => ([d.provider.answerList maxIds token], desks)
  | some d, fetch number id count region token =>
    let (frames, d) := d.answerFetch id count region token spare
    (frames, desks.set number d)

/-- The frames for whatever a client sent, and the desks behind it. -/
def serveValue (desks : Desks) (v : Resp.Value) (spare : Nat) : List Frame × Desks :=
  match Request.ofValue v with
  | .ok r => r.serve desks spare
  | .error failure => ([.rejected failure.status failure.message], desks)

end Telemetry
