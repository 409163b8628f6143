import Telemetry.Number.Double

/-!
# Decimal text of a double

Two ways of writing a double in decimal, both positional and without an exponent:

* `Double.text` writes the fewest digits that read back as the same number, the nearest of them if
  there are several, and the upper one of two equally near;
* `Double.textFixed` writes a given number of digits behind the point, a half going to the even
  digit.
-/
namespace Telemetry

namespace Decimal

/-- The whole numbers `d` for which `d * 10 ^ k` reads back as a given double, described exactly:
the double is `value / unit`, and the numbers between `low / unit` and `high / unit` round to it,
the ends included if `closed`. -/
structure Neighbourhood where
  value : Nat
  low : Nat
  high : Nat
  unit : Nat
  closed : Bool

/-- The numbers that round to the positive double `mantissa * 2 ^ exponent`. The gap below a power
of two is half as wide as the gap above, save for the smallest one. -/
def neighbourhood (x : Double) : Neighbourhood :=
  let m := x.mantissa
  let e := x.exponent - 2
  let below := if x.fractionBits = 0 ∧ 1 < x.exponentBits then 1 else 2
  let scale := Nat.pow 2 e.toNat
  { value := 4 * m * scale
    low := (4 * m - below) * scale
    high := (4 * m + 2) * scale
    unit := Nat.pow 2 (-e).toNat
    closed := m % 2 = 0 }

/-- Whether `d * 10 ^ k` lies in the neighbourhood. -/
def Neighbourhood.holds (n : Neighbourhood) (d : Nat) (k : Int) : Bool :=
  let candidate := d * Nat.pow 10 k.toNat * n.unit
  let low := n.low * Nat.pow 10 (-k).toNat
  let high := n.high * Nat.pow 10 (-k).toNat
  if n.closed then low ≤ candidate && candidate ≤ high else low < candidate && candidate < high

/-- The member of the neighbourhood among the two multiples of `10 ^ k` beside the value, the nearer
one if both are members, and the upper one on a tie. -/
def Neighbourhood.nearest? (n : Neighbourhood) (k : Int) : Option Nat :=
  let num := n.value * Nat.pow 10 (-k).toNat
  let den := n.unit * Nat.pow 10 k.toNat
  let d := num / den
  match n.holds d k, n.holds (d + 1) k with
  | true, true => if 2 * (num % den) < den then some d else some (d + 1)
  | true, false => some d
  | false, true => some (d + 1)
  | false, false => none

/-- The decimal order of a positive value: the least `p` with `value < 10 ^ p * unit`, searched
among the exponents that a double can have. -/
def order (value unit : Nat) : Int :=
  if unit ≤ value then ((toString (value / unit)).length : Int)
  else
    let digits := (toString (unit / value)).length
    if unit < value * Nat.pow 10 digits then 1 - (digits : Int) else -(digits : Int)

/-- The digits and the power of ten of the shortest decimal in the neighbourhood, looking first at
one digit and then at each greater number up to seventeen. -/
def Neighbourhood.shortest (n : Neighbourhood) (top : Int) : (steps digits : Nat) → Nat × Int
  | 0, digits => (n.value * Nat.pow 10 ((digits : Int) - top).toNat / n.unit, top - digits)
  | steps + 1, digits =>
    match n.nearest? (top - digits) with
    | some d => (d, top - digits)
    | none => n.shortest top steps (digits + 1)

/-- The digits of `d * 10 ^ k` with a point where one is needed. -/
def positional (d : Nat) (k : Int) : String :=
  let digits := toString d
  if 0 ≤ k then digits ++ String.ofList (List.replicate k.toNat '0')
  else
    let places := (-k).toNat
    let padded := String.ofList (List.replicate (places + 1 - digits.length) '0') ++ digits
    let whole := padded.length - places
    String.ofList (padded.toList.take whole) ++ "." ++ String.ofList (padded.toList.drop whole)

/-- Drops the zeros at the end of `d * 10 ^ k` that stand behind the point. -/
def trim (d : Nat) (k : Int) : (steps : Nat) → Nat × Int
  | 0 => (d, k)
  | steps + 1 => if k < 0 ∧ d % 10 = 0 then trim (d / 10) (k + 1) steps else (d, k)

/-- A quotient rounded to the nearest whole number, a half to the even one. -/
def roundHalfEven (num den : Nat) : Nat :=
  let q := num / den
  let r := 2 * (num % den)
  if r < den then q else if den < r then q + 1 else if q % 2 = 0 then q else q + 1

end Decimal

namespace Double

/-- The text of a number that is not finite. -/
def textSpecial (x : Double) : String :=
  if x.isNaN then "NaN" else if x.isNegative then "-inf" else "inf"

/-- The minus sign of a negative number, zero included. -/
def sign (x : Double) : String := if x.isNegative then "-" else ""

/-- The shortest decimal text that reads back as the number, never with an exponent. -/
def text (x : Double) : String :=
  if !x.isFinite then x.textSpecial
  else if x.mantissa = 0 then x.sign ++ "0"
  else
    let n := Decimal.neighbourhood x
    let (d, k) := n.shortest (Decimal.order n.value n.unit) 17 1
    let (d, k) := Decimal.trim d k 17
    x.sign ++ Decimal.positional d k

/-- The decimal text with `places` digits behind the point. -/
def textFixed (places : Nat) (x : Double) : String :=
  if !x.isFinite then x.textSpecial
  else
    let num := x.mantissa * Nat.pow 2 x.exponent.toNat * Nat.pow 10 places
    let den := Nat.pow 2 (-x.exponent).toNat
    x.sign ++ Decimal.positional (Decimal.roundHalfEven num den) (-(places : Int))

end Double

end Telemetry
