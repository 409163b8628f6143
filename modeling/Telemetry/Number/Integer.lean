/-!
# Decimal integers of a fixed width

Reading a decimal integer that has to fit a fixed range. Digits are read from the left and the
first thing that goes wrong decides the failure: a character that is no digit, or the digit at which
the number leaves its range. A plus sign is allowed everywhere, a minus sign only in ranges that
have negative members.
-/
namespace Telemetry

/-- Why a text is no integer of the wanted range. -/
inductive IntegerFault where
  | empty
  | notDigit
  | tooLarge
  | tooSmall
deriving DecidableEq, Repr

/-- What a reader is told about a text that is no integer of the wanted range. -/
def IntegerFault.message : IntegerFault → String
  | empty => "cannot parse integer from empty string"
  | notDigit => "invalid digit found in string"
  | tooLarge => "number too large to fit in target type"
  | tooSmall => "number too small to fit in target type"

/-- The integers of one width. -/
structure IntegerRange where
  lo : Int
  hi : Int
deriving DecidableEq, Repr

namespace IntegerRange

/-- The numbers from `0` to `2 ^ bits - 1`. -/
def unsigned (bits : Nat) : IntegerRange := ⟨0, (Nat.pow 2 bits : Int) - 1⟩

/-- The two's complement numbers of `bits` bits. -/
def signed (bits : Nat) : IntegerRange :=
  ⟨-(Nat.pow 2 (bits - 1) : Int), (Nat.pow 2 (bits - 1) : Int) - 1⟩

/-- Whether a number lies in the range. -/
def contains (r : IntegerRange) (n : Int) : Bool := r.lo ≤ n && n ≤ r.hi

/-- The value of a decimal digit. -/
def digit? (c : Char) : Option Nat :=
  if '0' ≤ c ∧ c ≤ '9' then some (c.toNat - 48) else none

/-- Reads on behind the digits of `seen`; `negative` makes every digit count downwards. -/
def readDigits (r : IntegerRange) (negative : Bool) (seen : Int) :
    List Char → Except IntegerFault Int
  | [] => .ok seen
  | c :: rest =>
    match digit? c with
    | none => .error .notDigit
    | some d =>
      if negative then
        let next := seen * 10 - d
        if next < r.lo then .error .tooSmall else readDigits r negative next rest
      else
        let next := seen * 10 + d
        if r.hi < next then .error .tooLarge else readDigits r negative next rest

/-- Reads a decimal integer of the range. -/
def parse (r : IntegerRange) : List Char → Except IntegerFault Int
  | [] => .error .empty
  | ['+'] => .error .notDigit
  | ['-'] => .error .notDigit
  | '+' :: rest => readDigits r false 0 rest
  | '-' :: rest => if r.lo < 0 then readDigits r true 0 rest else .error .notDigit
  | digits => readDigits r false 0 digits

/-- Reads a decimal integer of the range from a text. -/
def parseText (r : IntegerRange) (s : String) : Except IntegerFault Int := r.parse s.toList

/-- Reads a decimal number that is not negative. -/
def parseNat (r : IntegerRange) (s : String) : Except IntegerFault Nat :=
  (r.parse s.toList).map Int.toNat

/-- Numbers of sixteen bits. -/
def word16 : IntegerRange := .unsigned 16

/-- Numbers of thirty-two bits. -/
def word32 : IntegerRange := .unsigned 32

/-- Numbers of sixty-four bits. -/
def word64 : IntegerRange := .unsigned 64

/-- Integers of thirty-two bits, negative ones included. -/
def int32 : IntegerRange := .signed 32

/-- Integers of sixty-four bits, negative ones included. -/
def int64 : IntegerRange := .signed 64

end IntegerRange

end Telemetry
