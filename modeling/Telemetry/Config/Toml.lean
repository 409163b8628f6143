import Telemetry.Json
import Telemetry.Number.Integer

/-!
# Flat TOML documents

A reader for TOML documents that hold nothing but keys with texts, integers and truth values. All
four forms of strings, all four bases of integers, quoted keys and comments are read; tables,
arrays, dotted keys, floats and dates are refused, as are repeated keys.
-/
namespace Telemetry.Toml

/-- A value of a flat document. -/
inductive Value where
  | string (s : String)
  | integer (n : Int)
  | bool (b : Bool)
deriving DecidableEq, Repr

/-- Drops spaces and tabs. -/
def skipBlanks (cs : List Char) : List Char := cs.dropWhile fun c => c = ' ' || c = '\t'

/-- Cuts off a line end. -/
def newline? : List Char → Option (List Char)
  | '\n' :: rest => some rest
  | '\r' :: '\n' :: rest => some rest
  | _ => none

/-- Whether a character may stand in a comment and in a one-line literal. -/
def isPlain (c : Char) : Bool := c = '\t' || (32 ≤ c.toNat && c.toNat ≠ 127)

/-- Reads blanks, a comment if there is one, and the end of the line or of the text. -/
def endOfLine (cs : List Char) : Option (List Char) :=
  let cs := skipBlanks cs
  let cs := match cs with
    | '#' :: rest => rest.dropWhile isPlain
    | cs => cs
  match cs with
  | [] => some []
  | cs => newline? cs

/-- Reads hexadecimal digits up to a number of them. -/
def readHex (value : Nat) : (digits : Nat) → List Char → Option (Nat × List Char)
  | 0, cs => some (value, cs)
  | digits + 1, c :: rest => (Json.hexDigit? c).bind fun d => readHex (value * 16 + d) digits rest
  | _ + 1, [] => none

/-- Reads the character that stands behind a backslash. -/
def readEscape : List Char → Option (Char × List Char)
  | 'u' :: rest => (readHex 0 4 rest).bind fun (n, rest) => scalar n rest
  | 'U' :: rest => (readHex 0 8 rest).bind fun (n, rest) => scalar n rest
  | c :: rest =>
    ([('b', '\x08'), ('t', '\t'), ('n', '\n'), ('f', '\x0c'), ('r', '\r'), ('"', '"'),
      ('\\', '\\')].lookup c).map fun d => (d, rest)
  | [] => none
where
  /-- The character of a number, if it is one. -/
  scalar (n : Nat) (rest : List Char) : Option (Char × List Char) :=
    if n.isValidChar then some (Char.ofNat n, rest) else none

/-- Drops blanks and line ends. -/
def skipLines : (steps : Nat) → List Char → List Char
  | 0, cs => cs
  | steps + 1, cs =>
    let cs := skipBlanks cs
    match newline? cs with
    | some rest => skipLines steps rest
    | none => cs

/-- Reads a string between single delimiters. -/
def readLine (delimiter : Char) (escapes : Bool) (seen : List Char) :
    (steps : Nat) → List Char → Option (String × List Char)
  | 0, _ => none
  | steps + 1, cs =>
    match cs with
    | [] => none
    | c :: rest =>
      if c = delimiter then some (String.ofList seen.reverse, rest)
      else if escapes ∧ c = '\\' then
        match readEscape rest with
        | some (d, rest) => readLine delimiter escapes (d :: seen) steps rest
        | none => none
      else if isPlain c then readLine delimiter escapes (c :: seen) steps rest
      else none

/-- Reads a string between triple delimiters. Up to two delimiters may stand right before the
closing ones; a backslash at the end of a line drops the blanks and lines that follow. -/
def readBlock (delimiter : Char) (escapes : Bool) (seen : List Char) :
    (steps : Nat) → List Char → Option (String × List Char)
  | 0, _ => none
  | steps + 1, cs =>
    match cs with
    | [] => none
    | c :: rest =>
      if c = delimiter then
        let run := 1 + (rest.takeWhile (· = delimiter)).length
        if run < 3 then
          readBlock delimiter escapes (List.replicate run delimiter ++ seen) steps (cs.drop run)
        else
          let closing := min run 5
          some (String.ofList (List.replicate (closing - 3) delimiter ++ seen).reverse,
            cs.drop closing)
      else if escapes ∧ c = '\\' then
        match newline? (skipBlanks rest) with
        | some rest => readBlock delimiter escapes seen steps (skipLines (rest.length + 1) rest)
        | none =>
          match readEscape rest with
          | some (d, rest) => readBlock delimiter escapes (d :: seen) steps rest
          | none => none
      else match newline? cs with
        | some rest => readBlock delimiter escapes ('\n' :: seen) steps rest
        | none => if isPlain c then readBlock delimiter escapes (c :: seen) steps rest else none

/-- Reads a string with three delimiters on each side; a line end right behind the opening ones does
not count. -/
def readTriple (delimiter : Char) (escapes : Bool) (cs : List Char) : Option (String × List Char) :=
  let cs := (newline? cs).getD cs
  readBlock delimiter escapes [] (cs.length + 1) cs

/-- Cuts off the digits of a base, which single underscores may separate. -/
def readDigits (isDigit : Char → Bool) (seen : List Char) : List Char → List Char × List Char
  | c :: rest =>
    if isDigit c then readDigits isDigit (c :: seen) rest
    else if c = '_' ∧ ¬ seen.isEmpty ∧ (rest.head?.any isDigit) then readDigits isDigit seen rest
    else (seen.reverse, c :: rest)
  | [] => (seen.reverse, [])

/-- The number of a list of digits in a base. -/
def digitsValue (base : Nat) (digits : List Char) : Nat :=
  digits.foldl (fun n c => n * base + (Json.hexDigit? c).getD 0) 0

/-- Reads digits of a base. -/
def readBased (base : Nat) (cs : List Char) : Option (Int × List Char) :=
  match readDigits (fun c => (Json.hexDigit? c).any (· < base)) [] cs with
  | ([], _) => none
  | (digits, rest) => some (digitsValue base digits, rest)

/-- Reads a decimal integer without its sign; zeros may not lead. -/
def readDecimal (cs : List Char) : Option (Int × List Char) :=
  match readDigits Char.isDigit [] cs with
  | ([], _) => none
  | ('0' :: _ :: _, _) => none
  | (digits, rest) => some (digitsValue 10 digits, rest)

/-- Reads a value. -/
def readValue : List Char → Option (Value × List Char)
  | '"' :: '"' :: '"' :: rest => text (readTriple '"' true rest)
  | '"' :: rest => text (readLine '"' true [] (rest.length + 1) rest)
  | '\'' :: '\'' :: '\'' :: rest => text (readTriple '\'' false rest)
  | '\'' :: rest => text (readLine '\'' false [] (rest.length + 1) rest)
  | 't' :: 'r' :: 'u' :: 'e' :: rest => some (.bool true, rest)
  | 'f' :: 'a' :: 'l' :: 's' :: 'e' :: rest => some (.bool false, rest)
  | '0' :: 'x' :: rest => number (readBased 16 rest)
  | '0' :: 'o' :: rest => number (readBased 8 rest)
  | '0' :: 'b' :: rest => number (readBased 2 rest)
  | '+' :: rest => number (readDecimal rest)
  | '-' :: rest => number ((readDecimal rest).map fun (n, rest) => (-n, rest))
  | cs => number (readDecimal cs)
where
  /-- A text as a value. -/
  text (found : Option (String × List Char)) : Option (Value × List Char) :=
    found.map fun (s, rest) => (.string s, rest)
  /-- An integer as a value, if sixty-four bits hold it. -/
  number (found : Option (Int × List Char)) : Option (Value × List Char) :=
    found.bind fun (n, rest) =>
      if IntegerRange.int64.contains n then some (.integer n, rest) else none

/-- Reads a key that is a single name. -/
def readKey : List Char → Option (String × List Char)
  | '"' :: rest => readLine '"' true [] (rest.length + 1) rest
  | '\'' :: rest => readLine '\'' false [] (rest.length + 1) rest
  | cs =>
    let isBare := fun c : Char => c.isAlphanum || c = '_' || c = '-'
    match cs.takeWhile isBare with
    | [] => none
    | name => some (String.ofList name, cs.dropWhile isBare)

/-- Reads a key, its value and the rest of their line. -/
def readPair (cs : List Char) : Option ((String × Value) × List Char) := do
  let (key, rest) ← readKey cs
  match skipBlanks rest with
  | '=' :: rest =>
    let (value, rest) ← readValue (skipBlanks rest)
    return ((key, value), ← endOfLine rest)
  | _ => none

/-- Reads the lines that are left; the keys already read are given in reverse. -/
def readLines (seen : List (String × Value)) : (steps : Nat) → List Char →
    Option (List (String × Value))
  | 0, _ => none
  | steps + 1, cs =>
    let cs := skipBlanks cs
    match cs with
    | [] => some seen.reverse
    | c :: _ =>
      if c = '#' ∨ c = '\n' ∨ c = '\r' then (endOfLine cs).bind (readLines seen steps)
      else match readPair cs with
        | some (pair, rest) => readLines (pair :: seen) steps rest
        | none => none

/-- The keys and values of a flat document, in their order. A byte order mark may come first. -/
def parse? (s : String) : Option (List (String × Value)) :=
  let cs := match s.toList with
    | c :: rest => if c.toNat = 0xFEFF then rest else c :: rest
    | [] => []
  match readLines [] (cs.length + 1) cs with
  | some pairs => if (pairs.map Prod.fst).Nodup then some pairs else none
  | none => none

end Telemetry.Toml
