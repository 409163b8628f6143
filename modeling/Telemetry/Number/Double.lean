import Telemetry.Bytes

/-!
# Double-precision numbers

A recorded number is kept as its bit pattern, so that what is stored, sent and read back is the same
bit for bit, payloads of NaN and the sign of zero included. Arithmetic and order are those of the
number that the pattern stands for.

`Double.mantissa` and `Double.exponent` give a finite pattern exactly as `mantissa * 2 ^ exponent`.
-/
namespace Telemetry

/-- A double-precision number, held as its bit pattern. -/
structure Double where
  bits : UInt64
deriving DecidableEq, Repr, Inhabited

namespace Double

/-- The number that a pattern stands for. -/
def toFloat (x : Double) : Float := Float.ofBits x.bits

/-- The pattern of a number. -/
def ofFloat (x : Float) : Double := ⟨x.toBits⟩

/-- The pattern of a whole number, rounded where it has more than 53 bits. -/
def ofNat (n : Nat) : Double := ofFloat n.toUInt64.toFloat

/-- Zero, without a sign. -/
def zero : Double := ⟨0⟩

/-- Zero with a minus sign, the start of every sum. -/
def negativeZero : Double := ⟨0x8000000000000000⟩

/-- Infinity. -/
def infinity : Double := ⟨0x7FF0000000000000⟩

/-- Negative infinity. -/
def negativeInfinity : Double := ⟨0xFFF0000000000000⟩

/-- The NaN that arithmetic gives. -/
def nan : Double := ⟨0x7FF8000000000000⟩

instance : Add Double := ⟨fun x y => ofFloat (x.toFloat + y.toFloat)⟩
instance : Sub Double := ⟨fun x y => ofFloat (x.toFloat - y.toFloat)⟩
instance : Mul Double := ⟨fun x y => ofFloat (x.toFloat * y.toFloat)⟩
instance : Div Double := ⟨fun x y => ofFloat (x.toFloat / y.toFloat)⟩

/-- The square root. -/
def sqrt (x : Double) : Double := ofFloat x.toFloat.sqrt

/-- The number without its sign. -/
def abs (x : Double) : Double := ofFloat x.toFloat.abs

/-- Whether the pattern stands for no number. -/
def isNaN (x : Double) : Bool := x.toFloat.isNaN

/-- Order of the numbers; NaN is below nothing and nothing is below it. -/
def lt (x y : Double) : Bool := x.toFloat < y.toFloat

/-- Equality of the numbers: both zeros are equal, and NaN differs from itself. -/
def eq (x y : Double) : Bool := x.toFloat == y.toFloat

/-- The smaller of two numbers; of a number and NaN, the number. -/
def min (x y : Double) : Double :=
  if x.isNaN then y else if y.isNaN then x else if y.lt x then y else x

/-- The larger of two numbers; of a number and NaN, the number. -/
def max (x y : Double) : Double :=
  if x.isNaN then y else if y.isNaN then x else if x.lt y then y else x

/-- The whole part as an unsigned 64-bit integer: negative numbers and NaN give zero, numbers beyond
the range its last member. -/
def truncate (x : Double) : Nat := x.toFloat.toUInt64.toNat

/-- Whether the sign bit is set. -/
def isNegative (x : Double) : Bool := 0x8000000000000000 ≤ x.bits.toNat

/-- The eleven exponent bits. -/
def exponentBits (x : Double) : Nat := x.bits.toNat / 0x10000000000000 % 0x800

/-- The fifty-two fraction bits. -/
def fractionBits (x : Double) : Nat := x.bits.toNat % 0x10000000000000

/-- Whether the pattern stands for a number that is not infinite. -/
def isFinite (x : Double) : Bool := x.exponentBits != 2047

/-- The whole number `m` in the exact value `m * 2 ^ e` of a finite pattern, without its sign. -/
def mantissa (x : Double) : Nat :=
  if x.exponentBits = 0 then x.fractionBits else 0x10000000000000 + x.fractionBits

/-- The power `e` in the exact value `m * 2 ^ e` of a finite pattern. -/
def exponent (x : Double) : Int :=
  if x.exponentBits = 0 then -1074 else (x.exponentBits : Int) - 1075

/-- The pattern as eight bytes, least significant first. -/
def toBytes (x : Double) : Bytes := .littleEndian 8 x.bits.toNat

end Double

end Telemetry
