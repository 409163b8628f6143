import Telemetry.Failure
import Telemetry.Reduction.Statistics

/-!
# Reduced values

What a reduction leaves of a window, and how it is stored: four bytes for the form, then a number,
or a count of eight bytes and that many records. Bytes behind a stored value are ignored.
-/
namespace Telemetry

/-- What a reduction leaves of a window. -/
inductive ReducedValue where
  | scalar (value : Double)
  | samples (window : List Sample)
  | outliers (values : List Double)
deriving DecidableEq, Repr

namespace ReducedValue

/-- What an operator makes of a window; nothing of an empty one. -/
def ofWindow (op : Operator) (kind : Kind) (window : List Sample) : Option ReducedValue :=
  if window.isEmpty then none
  else match op with
    | .null => none
    | .sum => some (.scalar (Statistics.sum window))
    | .avg => (Statistics.mean? window).map .scalar
    | .min => (Statistics.min? kind window).map .scalar
    | .max => (Statistics.max? kind window).map .scalar
    | .store => some (.samples window)
    | .anomaly => some (.outliers (Statistics.outliers window))

/-- The number, if the reduction left one. -/
def asScalar? : ReducedValue → Option Double
  | scalar value => some value
  | _ => none

/-- The stored form. -/
def encode : ReducedValue → Bytes
  | scalar value => Bytes.littleEndian 4 0 ++ value.toBytes
  | samples window =>
    Bytes.littleEndian 4 1 ++ Bytes.littleEndian 8 window.length ++ Sample.packAll window
  | outliers values =>
    Bytes.littleEndian 4 2 ++ Bytes.littleEndian 8 values.length ++ values.flatMap Double.toBytes

/-- Reads a count and that many records. -/
def readCounted (read : Bytes → Option (α × Bytes)) (input : Bytes) : Option (List α) := do
  let (count, rest) ← input.readWord
  let (items, _) ← Bytes.readMany read [] count.toNat rest
  return items

/-- Reads a stored form. -/
def decode? (input : Bytes) : Option ReducedValue := do
  let (form, rest) ← input.splitAt? 4
  match form.toNatLittleEndian with
  | 0 => return .scalar (← rest.readDouble).1
  | 1 => return .samples (← readCounted Sample.unpack rest)
  | 2 => return .outliers (← readCounted Bytes.readDouble rest)
  | _ => none

/-- Reads a stored form, or says that there is none. -/
def decode (input : Bytes) : Except Failure ReducedValue :=
  match decode? input with
  | some value => .ok value
  | none => .error (.other "decode reduced value: not a stored value")

end ReducedValue

end Telemetry
