/-!
# JSON

Values and a reader for JSON texts. The reader is strict: nothing but blanks may surround the value,
there are no comments, no trailing commas and no leading zeros, and values nest at most 127 deep.
-/
namespace Telemetry

/-- A JSON value. Whole numbers written without a fraction or an exponent are told apart from other
numbers, and members keep their order. -/
inductive Json where
  | null
  | bool (b : Bool)
  | integer (n : Int)
  /-- The number `mantissa * 10 ^ exponent`. -/
  | decimal (mantissa exponent : Int)
  | string (s : String)
  | array (items : List Json)
  | object (members : List (String × Json))
deriving Inhabited

namespace Json

/-- The member of a name, in objects that have it. -/
def get? (name : String) : Json → Option Json
  | object members => (members.find? fun (n, _) => n = name).map Prod.snd
  | _ => none

/-- The text, if the value is one. -/
def asString? : Json → Option String
  | string s => some s
  | _ => none

/-- Drops the blanks that may stand between tokens. -/
def skipBlanks (cs : List Char) : List Char :=
  cs.dropWhile fun c => c = ' ' || c = '\t' || c = '\n' || c = '\r'

/-- The value of a hexadecimal digit. -/
def hexDigit? (c : Char) : Option Nat :=
  if '0' ≤ c ∧ c ≤ '9' then some (c.toNat - 48)
  else if 'a' ≤ c ∧ c ≤ 'f' then some (c.toNat - 87)
  else if 'A' ≤ c ∧ c ≤ 'F' then some (c.toNat - 55)
  else none

/-- Reads four hexadecimal digits. -/
def readUnit : List Char → Option (Nat × List Char)
  | a :: b :: c :: d :: rest => do
    return (((← hexDigit? a) * 16 + (← hexDigit? b)) * 256
      + (← hexDigit? c) * 16 + (← hexDigit? d), rest)
  | _ => none

/-- Reads what follows `\u`: a character, or two surrogates that make one. -/
def readUnicodeEscape (cs : List Char) : Option (Char × List Char) :=
  match readUnit cs with
  | none => none
  | some (hi, rest) =>
    if hi < 0xD800 ∨ 0xDFFF < hi then some (Char.ofNat hi, rest)
    else if 0xDC00 ≤ hi then none
    else match rest with
      | '\\' :: 'u' :: rest =>
        match readUnit rest with
        | some (lo, rest) =>
          if 0xDC00 ≤ lo ∧ lo ≤ 0xDFFF then
            some (Char.ofNat (0x10000 + (hi - 0xD800) * 0x400 + (lo - 0xDC00)), rest)
          else none
        | none => none
      | _ => none

/-- Reads the characters of a string up to its closing quote; those already read are given in
reverse. -/
def readString (seen : List Char) : (steps : Nat) → List Char → Option (String × List Char)
  | 0, _ => none
  | steps + 1, cs =>
    match cs with
    | '"' :: rest => some (String.ofList seen.reverse, rest)
    | '\\' :: 'u' :: rest =>
      match readUnicodeEscape rest with
      | some (c, rest) => readString (c :: seen) steps rest
      | none => none
    | '\\' :: c :: rest =>
      match [('"', '"'), ('\\', '\\'), ('/', '/'), ('b', '\x08'), ('f', '\x0c'), ('n', '\n'),
        ('r', '\r'), ('t', '\t')].lookup c with
      | some d => readString (d :: seen) steps rest
      | none => none
    | c :: rest => if c.toNat < 32 then none else readString (c :: seen) steps rest
    | [] => none

/-- The number that decimal digits stand for. -/
def digitsValue (cs : List Char) : Nat := cs.foldl (fun n c => n * 10 + (c.toNat - 48)) 0

/-- Cuts the decimal digits off the front of a text. -/
def readDigits (cs : List Char) : List Char × List Char :=
  (cs.takeWhile Char.isDigit, cs.dropWhile Char.isDigit)

/-- Reads the exponent of a number, if it has one. -/
def readExponent : List Char → Option (Option Int × List Char)
  | c :: rest =>
    if c = 'e' ∨ c = 'E' then
      let (negative, rest) := match rest with
        | '-' :: rest => (true, rest)
        | '+' :: rest => (false, rest)
        | rest => (false, rest)
      match readDigits rest with
      | ([], _) => none
      | (digits, rest) =>
        let n : Int := digitsValue digits
        some (some (if negative then -n else n), rest)
    else some (none, c :: rest)
  | [] => some (none, [])

/-- Reads the fraction of a number, if it has one. -/
def readFraction : List Char → Option (List Char × List Char)
  | '.' :: rest =>
    match readDigits rest with
    | ([], _) => none
    | found => some found
  | cs => some ([], cs)

/-- Reads a number without its sign. -/
def readNumber (negative : Bool) (cs : List Char) : Option (Json × List Char) := do
  let (whole, rest) := readDigits cs
  match whole with
  | [] => none
  | '0' :: _ :: _ => none
  | _ =>
    let (fraction, rest) ← readFraction rest
    let (exponent, rest) ← readExponent rest
    let magnitude : Int := digitsValue (whole ++ fraction)
    let signed := if negative then -magnitude else magnitude
    if fraction.isEmpty ∧ exponent.isNone ∧ ¬ (negative ∧ magnitude = 0) then
      return (integer signed, rest)
    else return (decimal signed (exponent.getD 0 - fraction.length), rest)

mutual

/-- Reads a value that nests at most `levels` deep. -/
def readValue (levels : Nat) : (steps : Nat) → List Char → Option (Json × List Char)
  | 0, _ => none
  | steps + 1, cs =>
    match cs with
    | 'n' :: 'u' :: 'l' :: 'l' :: rest => some (null, rest)
    | 't' :: 'r' :: 'u' :: 'e' :: rest => some (bool true, rest)
    | 'f' :: 'a' :: 'l' :: 's' :: 'e' :: rest => some (bool false, rest)
    | '"' :: rest => (readString [] (rest.length + 1) rest).map fun (s, rest) => (string s, rest)
    | '[' :: rest =>
      if levels = 0 then none
      else match skipBlanks rest with
        | ']' :: rest => some (array [], rest)
        | rest => readItems (levels - 1) [] steps rest
    | '\x7b' :: rest =>
      if levels = 0 then none
      else match skipBlanks rest with
        | '\x7d' :: rest => some (object [], rest)
        | rest => readMembers (levels - 1) [] steps rest
    | '-' :: rest => readNumber true rest
    | cs => readNumber false cs

/-- Reads the items of an array that are left; those already read are given in reverse. -/
def readItems (levels : Nat) (seen : List Json) : (steps : Nat) → List Char →
    Option (Json × List Char)
  | 0, _ => none
  | steps + 1, cs =>
    match readValue levels steps cs with
    | none => none
    | some (item, rest) =>
      match skipBlanks rest with
      | ']' :: rest => some (array (item :: seen).reverse, rest)
      | ',' :: rest => readItems levels (item :: seen) steps (skipBlanks rest)
      | _ => none

/-- Reads the members of an object that are left; those already read are given in reverse. -/
def readMembers (levels : Nat) (seen : List (String × Json)) : (steps : Nat) → List Char →
    Option (Json × List Char)
  | 0, _ => none
  | steps + 1, cs =>
    match cs with
    | '"' :: rest =>
      match readString [] (rest.length + 1) rest with
      | none => none
      | some (name, rest) =>
        match skipBlanks rest with
        | ':' :: rest =>
          match readValue levels steps (skipBlanks rest) with
          | none => none
          | some (value, rest) =>
            match skipBlanks rest with
            | '\x7d' :: rest => some (object ((name, value) :: seen).reverse, rest)
            | ',' :: rest => readMembers levels ((name, value) :: seen) steps (skipBlanks rest)
            | _ => none
        | _ => none
    | _ => none

end

/-- The value of a JSON text. -/
def parse? (s : String) : Option Json :=
  let cs := skipBlanks s.toList
  match readValue 127 (cs.length + 1) cs with
  | some (value, rest) => if (skipBlanks rest).isEmpty then some value else none
  | none => none

end Json

end Telemetry
