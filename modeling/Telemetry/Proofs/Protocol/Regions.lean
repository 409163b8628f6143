import Telemetry.Proofs.Metric.Samples
import Telemetry.Protocol.Region
import Mathlib

/-!
# Regions and what is pushed to them

A region that was set aside for a number of samples has room for just that many, takes a push of as
many packed samples or fewer, and gives those back.
-/
namespace Telemetry.Region

variable {id : UInt64} {count : Nat} {samples : List Sample}

/-- A region of a size that can be allocated is set aside. -/
theorem ofCount_eq_ok (h : count * Sample.packedLength ≤ allocationLimit) :
    ofCount id count = .ok ⟨id, count * Sample.packedLength, []⟩ := by
  have hlimit : allocationLimit < 0x10000000000000000 := by decide
  rw [ofCount, if_neg (by omega), if_neg (by omega)]

/-- The provider is told of room for as many samples as the region was set aside for. -/
theorem sampleCapacity_descriptor {data : Bytes}
    (h : count * Sample.packedLength ≤ allocationLimit) :
    (descriptor ⟨id, count * Sample.packedLength, data⟩).sampleCapacity = count := by
  have hlimit : allocationLimit < UInt64.size := by decide
  have hpos : 0 < Sample.packedLength := by decide
  have hsize : count * Sample.packedLength < UInt64.size := by omega
  rw [RegionDescriptor.sampleCapacity, descriptor, UInt64.toNat_ofNat_of_lt' hsize,
    Nat.mul_div_cancel _ hpos]

/-- A region takes packed samples for which it has room. -/
theorem accept_packAll {data : Bytes} (h : samples.length ≤ count) :
    accept ⟨id, count * Sample.packedLength, data⟩ ⟨id, Sample.packAll samples⟩
      = .ok ⟨id, count * Sample.packedLength, Sample.packAll samples⟩ := by
  have hroom : (Sample.packAll samples).length ≤ count * Sample.packedLength := by
    rw [Sample.length_packAll]
    exact Nat.mul_le_mul_right _ h
  rw [accept, if_neg (by simp), if_neg (by simpa using hroom)]

/-- Samples that were pushed are given back. -/
theorem samples_packAll {capacity : Nat} (samples : List Sample) :
    (⟨id, capacity, Sample.packAll samples⟩ : Region).samples samples.length = .ok samples := by
  have hlen := Sample.length_packAll samples
  rw [Region.samples]
  simp only
  rw [if_neg (by omega), List.take_of_length_le hlen.le, Sample.unpackAll_packAll]

end Telemetry.Region
