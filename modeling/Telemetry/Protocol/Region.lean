import Telemetry.Metric.Buffer

/-!
# Receive regions

A client that fetches samples sets aside a region for them and tells the provider its number and its
size. The provider pushes the packed samples to the region before it replies. A region takes a push
only if it is addressed to it and fits; a later push replaces an earlier one.
-/
namespace Telemetry

/-- What a provider is told about a region. -/
structure RegionDescriptor where
  id : UInt64
  /-- The size in bytes. -/
  length : UInt64
deriving DecidableEq, Repr

/-- The number of whole samples for which a region has room. -/
def RegionDescriptor.sampleCapacity (d : RegionDescriptor) : Nat :=
  d.length.toNat / Sample.packedLength

/-- Bytes that a provider sends to a region. -/
structure Push where
  region : UInt64
  payload : Bytes
deriving DecidableEq, Repr

/-- A region and what it has received. -/
structure Region where
  id : UInt64
  /-- The size in bytes. -/
  capacity : Nat
  data : Bytes
deriving DecidableEq, Repr

namespace Region

/-- An empty region with room for `count` samples. -/
def ofCount (id : UInt64) (count : Nat) : Except Failure Region :=
  let capacity := count * Sample.packedLength
  if 0x10000000000000000 ≤ capacity then
    .error (.invalidArgs (toString count ++ " samples overflows a region"))
  else if allocationLimit < capacity then
    .error (.allocation ("bulk region of " ++ toString capacity ++ " bytes: " ++ allocationRefusal))
  else .ok ⟨id, capacity, []⟩

/-- What the provider is told about the region. -/
def descriptor (r : Region) : RegionDescriptor := ⟨r.id, UInt64.ofNat r.capacity⟩

/-- Takes a push in place of what the region holds. -/
def accept (r : Region) (push : Push) : Except Failure Region :=
  if push.region ≠ r.id then
    .error (.transport ("bulk push for region " ++ toString push.region.toNat
      ++ " delivered to region " ++ toString r.id.toNat))
  else if r.capacity < push.payload.length then
    .error (.transport ("bulk push of " ++ toString push.payload.length
      ++ " bytes exceeds region of " ++ toString r.capacity ++ " bytes"))
  else .ok { r with data := push.payload }

/-- The first `count` samples that the region received. -/
def samples (r : Region) (count : Nat) : Except Failure (List Sample) :=
  let needed := count * Sample.packedLength
  if r.data.length < needed then
    .error (.transport ("reply announced " ++ toString count ++ " samples but region holds "
      ++ toString r.data.length ++ " bytes"))
  else Sample.unpackAll (r.data.take needed)

end Region

end Telemetry
