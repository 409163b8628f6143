import Telemetry.Metric.Sample
import Mathlib

/-!
# Records of a fixed size

Words, numbers and samples are written in a fixed number of bytes, and every byte string of that size
is one of them. So records that stand one behind the other can be told apart without anything between
them, and what is read is what was written.

## Main definitions

* `Bytes.IsRecord`: a reader and a writer of records that belong together.

## Main statements

* `Bytes.IsRecord.readMany_eq_some_iff`: records one behind the other.
* `Sample.isRecord`: packed samples.
-/
namespace Telemetry

namespace Bytes

/-- Whether a reader takes off the front of its input exactly what a writer puts there, and all byte
strings of some size are written for something. -/
structure IsRecord (read : Bytes → Option (α × Bytes)) (write : α → Bytes) (size : Nat) : Prop where
  read_eq_some_iff : ∀ input x rest, read input = some (x, rest) ↔ input = write x ++ rest
  length_write : ∀ x, (write x).length = size
  exists_write : ∀ bytes : Bytes, bytes.length = size → ∃ x, write x = bytes

namespace IsRecord

variable {read : Bytes → Option (α × Bytes)} {write : α → Bytes} {size n : Nat}
  {xs ys : List α} {input rest : Bytes}

/-! ## One record -/

theorem read_append (h : IsRecord read write size) (x : α) (rest : Bytes) :
    read (write x ++ rest) = some (x, rest) := (h.read_eq_some_iff _ _ _).mpr rfl

theorem eq_append (h : IsRecord read write size) {x : α} (hread : read input = some (x, rest)) :
    input = write x ++ rest := (h.read_eq_some_iff _ _ _).mp hread

theorem exists_read_of_le (h : IsRecord read write size) (input : Bytes) (hle : size ≤ input.length) :
    ∃ x, read input = some (x, input.drop size) := by
  obtain ⟨x, hx⟩ := h.exists_write (input.take size) (List.length_take_of_le hle)
  refine ⟨x, (h.read_eq_some_iff _ _ _).mpr ?_⟩
  rw [hx, List.take_append_drop]

/-! ## Many records -/

theorem length_flatMap (h : IsRecord read write size) (xs : List α) :
    (xs.flatMap write).length = xs.length * size := by
  rw [List.length_flatMap]
  simp [h.length_write]

/-- A record stands at a multiple of the size. -/
theorem getElem?_flatMap (h : IsRecord read write size) (hsize : 0 < size) (xs : List α) (p : Nat) :
    (xs.flatMap write)[p]? = xs[p / size]?.bind fun x => (write x)[p % size]? := by
  induction xs generalizing p with
  | nil => simp
  | cons x xs ih =>
    have hlength := h.length_write x
    rw [List.flatMap_cons]
    by_cases hp : p < size
    · rw [List.getElem?_append_left (hlength.symm ▸ hp), Nat.div_eq_of_lt hp, Nat.mod_eq_of_lt hp]
      rfl
    · rw [Nat.not_lt] at hp
      have hdiv : p / size = (p - size) / size + 1 := Nat.div_eq_sub_div hsize hp
      have hmod : p % size = (p - size) % size := Nat.mod_eq_sub_mod hp
      rw [List.getElem?_append_right (hlength.symm ▸ hp), hlength, ih, hdiv, hmod,
        List.getElem?_cons_succ]

/-- All byte strings for a whole number of records are written for some. -/
theorem exists_flatMap_eq (h : IsRecord read write size) {b : Bytes} (hb : b.length = n * size) :
    ∃ xs : List α, xs.length = n ∧ xs.flatMap write = b := by
  induction n generalizing b with
  | zero => exact ⟨[], rfl, (List.eq_nil_of_length_eq_zero (by simpa using hb)).symm⟩
  | succ n ih =>
    rw [Nat.succ_mul] at hb
    obtain ⟨x, hx⟩ := h.exists_write (b.take size) (List.length_take_of_le (by omega))
    obtain ⟨xs, hlength, hxs⟩ := ih (b := b.drop size) (by rw [List.length_drop]; omega)
    refine ⟨x :: xs, by rw [List.length_cons, hlength], ?_⟩
    rw [List.flatMap_cons, hx, hxs, List.take_append_drop]

theorem readMany_append (h : IsRecord read write size) (xs seen : List α) (rest : Bytes) :
    readMany read seen xs.length (xs.flatMap write ++ rest) = some (seen.reverse ++ xs, rest) := by
  induction xs generalizing seen with
  | nil => simp [readMany]
  | cons x xs ih =>
    rw [List.flatMap_cons, List.append_assoc, List.length_cons, readMany, h.read_append]
    simp only [ih, List.reverse_cons, List.append_assoc, List.singleton_append]

/-- Whatever is read, also behind records that were read before, was written. -/
theorem exists_of_readMany (h : IsRecord read write size) {seen : List α}
    (hread : readMany read seen n input = some (xs, rest)) :
    ∃ new : List α, new.length = n ∧ xs = seen.reverse ++ new ∧
      input = new.flatMap write ++ rest := by
  induction n generalizing seen input with
  | zero =>
    cases hread
    exact ⟨[], rfl, (List.append_nil _).symm, rfl⟩
  | succ n ih =>
    rw [readMany] at hread
    split at hread
    · cases hread
    · rename_i x tail hx
      obtain ⟨new, hlength, rfl, htail⟩ := ih hread
      refine ⟨x :: new, by rw [List.length_cons, hlength], by simp, ?_⟩
      rw [h.eq_append hx, htail, List.flatMap_cons, List.append_assoc]

/-- Records are read exactly where they were written, and only if all of them are there. -/
theorem readMany_eq_some_iff (h : IsRecord read write size) :
    readMany read [] n input = some (xs, rest) ↔
      xs.length = n ∧ input = xs.flatMap write ++ rest := by
  constructor
  · intro hread
    obtain ⟨new, hlength, rfl, hinput⟩ := h.exists_of_readMany hread
    exact ⟨hlength, hinput⟩
  · rintro ⟨rfl, rfl⟩
    exact h.readMany_append xs [] rest

/-- From enough bytes as many records are read as are asked for. -/
theorem exists_readMany_of_le (h : IsRecord read write size) (hle : n * size ≤ input.length) :
    ∃ xs : List α, readMany read [] n input = some (xs, input.drop (n * size)) := by
  obtain ⟨xs, hlength, hxs⟩ := h.exists_flatMap_eq (List.length_take_of_le hle)
  refine ⟨xs, h.readMany_eq_some_iff.mpr ⟨hlength, ?_⟩⟩
  rw [hxs, List.take_append_drop]

theorem write_injective (h : IsRecord read write size) : Function.Injective write := by
  intro x y heq
  have hread := h.read_append x []
  rw [heq, h.read_append] at hread
  cases hread
  rfl

theorem flatMap_injective (h : IsRecord read write size) (hsize : 0 < size) :
    Function.Injective fun xs : List α => xs.flatMap write := by
  intro xs ys (heq : xs.flatMap write = ys.flatMap write)
  have hlength : xs.length = ys.length := by
    have hbytes := congrArg List.length heq
    rw [h.length_flatMap, h.length_flatMap] at hbytes
    exact Nat.eq_of_mul_eq_mul_right hsize hbytes
  have hread := h.readMany_append xs [] []
  rw [heq, hlength, h.readMany_append] at hread
  simpa using hread.symm

end IsRecord

/-! ## Words and numbers -/

theorem getElem?_littleEndian (n value k : Nat) :
    (littleEndian n value)[k]? = if k < n then some (UInt8.ofNat (value / 256 ^ k)) else none := by
  induction n generalizing value k with
  | zero => simp [littleEndian]
  | succ n ih =>
    rw [littleEndian]
    cases k with
    | zero => simp
    | succ k =>
      rw [List.getElem?_cons_succ, ih, Nat.div_div_eq_div_mul, Nat.pow_succ, Nat.mul_comm 256]
      simp only [Nat.add_lt_add_iff_right]

theorem toNatLittleEndian_lt (b : Bytes) : b.toNatLittleEndian < 256 ^ b.length := by
  have hnumber := toNatLittleEndian_littleEndian b.length b.toNatLittleEndian
  rw [littleEndian_toNatLittleEndian] at hnumber
  rw [hnumber]
  exact Nat.mod_lt _ (Nat.pow_pos (by decide))

theorem littleEndian_ofNat {b : Bytes} (h : b.length = 8) :
    littleEndian 8 (UInt64.ofNat b.toNatLittleEndian).toNat = b := by
  have hlt := b.toNatLittleEndian_lt
  rw [h] at hlt
  rw [UInt64.toNat_ofNat_of_lt' hlt, ← h, littleEndian_toNatLittleEndian]

theorem isRecord_word : IsRecord readWord (fun w => littleEndian 8 w.toNat) 8 where
  read_eq_some_iff input w rest := by
    constructor
    · intro h
      obtain ⟨⟨front, tail⟩, hsplit, heq⟩ := Option.map_eq_some_iff.mp h
      obtain ⟨hlength, rfl⟩ := splitAt?_eq_some_iff.mp hsplit
      cases heq
      rw [littleEndian_ofNat hlength]
    · rintro rfl
      exact readWord_append w rest
  length_write w := length_littleEndian 8 w.toNat
  exists_write b hlength := ⟨_, littleEndian_ofNat hlength⟩

theorem isRecord_double : IsRecord readDouble Double.toBytes 8 where
  read_eq_some_iff input x rest := by
    rw [Double.toBytes, ← isRecord_word.read_eq_some_iff, readDouble, Option.map_eq_some_iff]
    constructor
    · rintro ⟨⟨bits, tail⟩, hread, heq⟩
      cases heq
      exact hread
    · intro hread
      exact ⟨_, hread, rfl⟩
  length_write x := length_littleEndian 8 x.bits.toNat
  exists_write b hlength := ⟨⟨_⟩, littleEndian_ofNat hlength⟩

end Bytes

/-! ## Samples -/

theorem Sample.isRecord : Bytes.IsRecord unpack pack packedLength where
  read_eq_some_iff input s rest := by
    constructor
    · intro h
      simp only [unpack, Option.bind_eq_bind, Option.bind_eq_some_iff, Option.pure_def] at h
      obtain ⟨⟨time, rest₁⟩, h₁, ⟨value, rest₂⟩, h₂, ⟨writer, rest₃⟩, h₃, heq⟩ := h
      cases heq
      have htime : input = time.toBytes ++ rest₁ := Bytes.isRecord_double.eq_append h₁
      have hvalue : rest₁ = value.toBytes ++ rest₂ := Bytes.isRecord_double.eq_append h₂
      have hwriter : rest₂ = Bytes.littleEndian 8 writer.toNat ++ rest₃ :=
        Bytes.isRecord_word.eq_append h₃
      rw [htime, hvalue, hwriter]
      simp only [pack, List.append_assoc]
    · rintro rfl
      exact unpack_pack s rest
  length_write := length_pack
  exists_write b hlength := by
    rw [packedLength] at hlength
    obtain ⟨time, htime⟩ := Bytes.isRecord_double.exists_read_of_le b (by omega)
    obtain ⟨value, hvalue⟩ := Bytes.isRecord_double.exists_read_of_le (b.drop 8)
      (by rw [List.length_drop]; omega)
    obtain ⟨writer, hwriter⟩ := Bytes.isRecord_word.exists_write (b.drop 16)
      (by rw [List.length_drop]; omega)
    have hback := Bytes.isRecord_double.eq_append hvalue
    rw [List.drop_drop, ← hwriter] at hback
    refine ⟨⟨time, value, writer⟩, ?_⟩
    rw [pack, List.append_assoc, ← hback]
    exact (Bytes.isRecord_double.eq_append htime).symm

end Telemetry
