import Telemetry.Metric.Buffer
import Telemetry.Proofs.Records
import Mathlib

/-!
# Packed samples

Packing is a bijection from the lists of samples to the byte strings that have the size of a whole
number of samples. The newest samples of a buffer are an end of its window, and they are packed in
the same form.

## Main definitions

* `Sample.words`: what is packed of a sample.

## Main statements

* `Sample.unpackAll_eq_ok_iff`: packing and unpacking are inverse to each other.
* `Sample.getElem?_packAll`: where the bytes of a sample are.
-/
namespace Telemetry

namespace Sample

variable {samples : List Sample} {input : Bytes}

@[simp] theorem length_packAll (samples : List Sample) :
    (packAll samples).length = samples.length * packedLength := isRecord.length_flatMap samples

/-- Packed samples are unpacked to the same samples. -/
theorem unpackAll_packAll (samples : List Sample) : unpackAll (packAll samples) = .ok samples := by
  have hpos : 0 < packedLength := by decide
  have hread := isRecord.readMany_append samples [] []
  rw [List.append_nil, ← packAll] at hread
  unfold unpackAll
  simp only [length_packAll, Nat.mul_mod_left, Nat.mul_div_cancel _ hpos, hread, List.reverse_nil,
    List.nil_append]

/-- Bytes for a whole number of samples are that many samples. -/
theorem unpackAll_of_length {n : Nat} (h : input.length = n * packedLength) :
    ∃ samples, unpackAll input = .ok samples ∧ samples.length = n := by
  obtain ⟨samples, hlength, hpacked⟩ := isRecord.exists_flatMap_eq h
  rw [← packAll] at hpacked
  exact ⟨samples, hpacked ▸ unpackAll_packAll samples, hlength⟩

theorem exists_unpackAll_iff :
    (∃ samples, unpackAll input = .ok samples) ↔ packedLength ∣ input.length := by
  constructor
  · rintro ⟨samples, h⟩
    simp only [unpackAll] at h
    split at h
    · exact Nat.dvd_of_mod_eq_zero ‹_›
    · cases h
  · rintro ⟨n, hn⟩
    obtain ⟨samples, h, -⟩ := unpackAll_of_length (hn.trans (Nat.mul_comm _ n))
    exact ⟨samples, h⟩

/-- Nothing but packed samples is unpacked. -/
theorem unpackAll_eq_ok_iff : unpackAll input = .ok samples ↔ packAll samples = input := by
  constructor
  · intro h
    obtain ⟨n, hn⟩ := exists_unpackAll_iff.mp ⟨samples, h⟩
    obtain ⟨samples', -, hpacked⟩ := isRecord.exists_flatMap_eq (hn.trans (Nat.mul_comm _ n))
    rw [← packAll] at hpacked
    rw [← hpacked, unpackAll_packAll] at h
    cases h
    exact hpacked
  · rintro rfl
    exact unpackAll_packAll samples

/-! ## The bytes of a packed sample -/

/-- The words that are packed of a sample, in their order. -/
def words (s : Sample) : List UInt64 := [s.time.bits, s.value.bits, s.writer]

theorem pack_eq_flatMap (s : Sample) :
    s.pack = s.words.flatMap fun w => Bytes.littleEndian 8 w.toNat := by
  simp [pack, words, Double.toBytes]

/-- At each place of packed samples there is one byte of one word of one sample. -/
theorem getElem?_packAll (samples : List Sample) (p : Nat) :
    (packAll samples)[p]? = samples[p / 24]?.bind fun s => s.words[p % 24 / 8]?.map fun w =>
      UInt8.ofNat (w.toNat / 256 ^ (p % 8)) := by
  have hword : p % 24 % 8 = p % 8 := Nat.mod_mod_of_dvd p (by decide)
  have hbyte : p % 8 < 8 := Nat.mod_lt p (by decide)
  rw [packAll, isRecord.getElem?_flatMap (by decide), packedLength]
  congr 1
  funext s
  rw [pack_eq_flatMap, Bytes.isRecord_word.getElem?_flatMap (by decide), hword, Option.map_eq_bind]
  congr 1
  funext w
  rw [Bytes.getElem?_littleEndian, if_pos hbyte, Function.comp_apply]

end Sample

namespace SampleBuffer

/-- The newest samples are the end of the window. -/
theorem tail_eq_drop (b : SampleBuffer) (n : Nat) :
    b.tail n = b.window.drop (b.window.length - n) := by
  rw [tail, window, Array.toList_extract, List.extract_eq_take_drop, Array.length_toList]
  rw [List.take_of_length_le]
  rw [List.length_drop, Array.length_toList]

/-- Asking for more than there is makes no difference. -/
theorem tail_min (b : SampleBuffer) (n : Nat) : b.tail (min n b.window.length) = b.tail n := by
  rw [tail_eq_drop, tail_eq_drop]
  congr 1
  omega

end SampleBuffer

/-- Samples have one packed form. Lists of samples and byte strings of whole samples correspond to
each other, byte by byte, and what a buffer writes of its newest samples is their packed form. -/
theorem Sample.packAll_bijective_and_packTail_eq :
    (∀ samples, unpackAll (packAll samples) = .ok samples) ∧
      (∀ input, (∃ samples, unpackAll input = .ok samples) ↔ packedLength ∣ input.length) ∧
      (∀ input samples, unpackAll input = .ok samples ↔ packAll samples = input) ∧
      (∀ samples p, (packAll samples)[p]? = samples[p / 24]?.bind fun s =>
        s.words[p % 24 / 8]?.map fun w => UInt8.ofNat (w.toNat / 256 ^ (p % 8))) ∧
      ∀ (b : SampleBuffer) (count : Nat) (written : Bytes),
        b.packTail count written = (written ++ packAll (b.tail count), (b.tail count).length) ∧
          (b.tail count).length = min count b.window.length ∧
          b.tail count = b.window.drop (b.window.length - count) := by
  refine ⟨unpackAll_packAll, fun _ => exists_unpackAll_iff, fun _ _ => unpackAll_eq_ok_iff,
    getElem?_packAll, fun b count written => ⟨b.packTail_eq count written, ?_, b.tail_eq_drop count⟩⟩
  rw [b.tail_eq_drop, List.length_drop]
  omega

end Telemetry
