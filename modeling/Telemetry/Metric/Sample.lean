import Telemetry.Failure
import Telemetry.Number.Double

/-!
# Samples and their packing

A sample is one recorded value with its time and its writer. On connections and in stored results a
sample is twenty-four bytes: time, value and writer, each eight bytes with the least significant
first. `Sample.packAll` and `Sample.unpackAll` are inverse to each other.
-/
namespace Telemetry

/-- One recorded value. -/
structure Sample where
  /-- Seconds since the epoch. -/
  time : Double
  value : Double
  /-- Who recorded the sample. -/
  writer : UInt64
deriving DecidableEq, Repr, Inhabited

/-- Reads one number of eight bytes. -/
def Bytes.readWord (input : Bytes) : Option (UInt64 × Bytes) :=
  (input.splitAt? 8).map fun (front, rest) => (UInt64.ofNat front.toNatLittleEndian, rest)

/-- Reads one double of eight bytes. -/
def Bytes.readDouble (input : Bytes) : Option (Double × Bytes) :=
  input.readWord.map fun (bits, rest) => (⟨bits⟩, rest)

/-- Reads `n` records one behind the other; the records already read are given in reverse. -/
def Bytes.readMany (read : Bytes → Option (α × Bytes)) (seen : List α) :
    (n : Nat) → Bytes → Option (List α × Bytes)
  | 0, input => some (seen.reverse, input)
  | n + 1, input =>
    match read input with
    | none => none
    | some (x, rest) => readMany read (x :: seen) n rest

theorem Bytes.readWord_append (w : UInt64) (rest : Bytes) :
    readWord (littleEndian 8 w.toNat ++ rest) = some (w, rest) := by
  have h := splitAt?_append (littleEndian 8 w.toNat) rest
  rw [length_littleEndian] at h
  simp only [readWord, h, Option.map_some, toNatLittleEndian_littleEndian]
  have : w.toNat % Nat.pow 256 8 = w.toNat := Nat.mod_eq_of_lt w.toNat_lt
  rw [this, UInt64.ofNat_toNat]

namespace Sample

/-- The bytes of a packed sample. -/
def packedLength : Nat := 24

/-- A sample as twenty-four bytes. -/
def pack (s : Sample) : Bytes :=
  s.time.toBytes ++ s.value.toBytes ++ Bytes.littleEndian 8 s.writer.toNat

/-- Reads one packed sample. -/
def unpack (input : Bytes) : Option (Sample × Bytes) := do
  let (time, rest) ← input.readDouble
  let (value, rest) ← rest.readDouble
  let (writer, rest) ← rest.readWord
  return (⟨time, value, writer⟩, rest)

/-- Samples packed one behind the other. -/
def packAll (samples : List Sample) : Bytes := samples.flatMap pack

/-- The samples of a byte string, which holds nothing but whole packed samples. -/
def unpackAll (input : Bytes) : Except Failure (List Sample) :=
  let length := input.length
  match length % packedLength, Bytes.readMany unpack [] (length / packedLength) input with
  | 0, some (samples, _) => .ok samples
  | _, _ => .error (.transport (toString length ++ " bytes is not a whole number of samples"))

theorem unpack_pack (s : Sample) (rest : Bytes) : unpack (s.pack ++ rest) = some (s, rest) := by
  simp only [unpack, pack, Double.toBytes, Bytes.readDouble, List.append_assoc,
    Bytes.readWord_append, Option.map_some, Option.bind_eq_bind, Option.bind_some, Option.pure_def]

@[simp] theorem length_pack (s : Sample) : s.pack.length = packedLength := by
  simp [pack, Double.toBytes, packedLength]

end Sample

end Telemetry
