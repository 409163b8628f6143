/-!
# Byte strings

Everything that crosses a connection or a sink is a list of bytes. This module fixes that type,
the bytes of a text, fixed-width little-endian integers and the hexadecimal text of a number.
-/
namespace Telemetry

/-- A byte string. -/
abbrev Bytes := List UInt8

namespace Bytes

/-- The UTF-8 bytes of a text. -/
def ofText (s : String) : Bytes := s.toUTF8.data.toList

/-- The bytes of a text written in seven-bit characters, one byte for each character. -/
def ofAscii (cs : List Char) : Bytes := cs.map fun c => c.val.toUInt8

/-- The lowest `n` bytes of a number, least significant first. -/
def littleEndian : Nat → Nat → Bytes
  | 0, _ => []
  | n + 1, value => UInt8.ofNat value :: littleEndian n (value / 256)

@[simp] theorem length_littleEndian (n value : Nat) : (littleEndian n value).length = n := by
  induction n generalizing value with
  | zero => rfl
  | succ n ih => simp [littleEndian, ih]

/-- The number whose bytes, least significant first, are given. -/
def toNatLittleEndian : Bytes → Nat
  | [] => 0
  | b :: rest => b.toNat + 256 * toNatLittleEndian rest

theorem toNatLittleEndian_littleEndian (n value : Nat) :
    toNatLittleEndian (littleEndian n value) = value % Nat.pow 256 n := by
  induction n generalizing value with
  | zero => exact (Nat.mod_one value).symm
  | succ n ih =>
    simp only [littleEndian, toNatLittleEndian, ih, UInt8.toNat_ofNat', Nat.reducePow]
    rw [show Nat.pow 256 (n + 1) = 256 * Nat.pow 256 n from Nat.mul_comm _ _, Nat.mod_mul]

/-- Every byte string is written for the number that is read from it. -/
theorem littleEndian_toNatLittleEndian (b : Bytes) :
    littleEndian b.length b.toNatLittleEndian = b := by
  induction b with
  | nil => rfl
  | cons byte rest ih =>
    have hbyte : byte.toNat < 256 := byte.toNat_lt
    have hlow : UInt8.ofNat (byte.toNat + 256 * toNatLittleEndian rest) = byte := by
      rw [← UInt8.toNat_inj]
      simp only [UInt8.toNat_ofNat', Nat.reducePow]
      omega
    have hhigh : (byte.toNat + 256 * toNatLittleEndian rest) / 256 = toNatLittleEndian rest := by
      omega
    rw [List.length_cons, toNatLittleEndian, littleEndian, hlow, hhigh, ih]

/-- Cuts the first `n` bytes off a byte string, if it has that many. -/
def splitAt? (n : Nat) (input : Bytes) : Option (Bytes × Bytes) :=
  let front := input.take n
  if front.length = n then some (front, input.drop n) else none

theorem splitAt?_append (front rest : Bytes) :
    splitAt? front.length (front ++ rest) = some (front, rest) := by
  simp [splitAt?]

theorem splitAt?_eq_some_iff {n : Nat} {input front rest : Bytes} :
    input.splitAt? n = some (front, rest) ↔ front.length = n ∧ input = front ++ rest := by
  unfold splitAt?
  simp only
  constructor
  · intro h
    split at h
    · cases h
      exact ⟨‹_›, (List.take_append_drop n input).symm⟩
    · cases h
  · rintro ⟨rfl, rfl⟩
    simp

end Bytes

/-- The hexadecimal digit of a number below sixteen, in lower case. -/
def hexDigit (n : Nat) : Char := if n < 10 then Char.ofNat (48 + n) else Char.ofNat (87 + n)

/-- The lowest `width` hexadecimal digits of a number, most significant first. -/
def hexPadded (width n : Nat) : String :=
  String.ofList ((List.range width).reverse.map fun i => hexDigit (n / Nat.pow 16 i % 16))

/-- A number in hexadecimal, without leading zeros. -/
def hexText (n : Nat) : String := String.ofList (Nat.toDigits 16 n)

end Telemetry
