/-!
# Blank characters, lines and fields

Blanks are the characters with Unicode's property `White_Space`. A text is cut into lines at line
feeds and into fields at runs of blanks.
-/
namespace Telemetry.Text

/-- Whether a character is white space. -/
def isBlank (c : Char) : Bool :=
  let n := c.toNat
  (9 ≤ n && n ≤ 13) || n == 0x20 || n == 0x85 || n == 0xA0 || n == 0x1680
    || (0x2000 ≤ n && n ≤ 0x200A) || n == 0x2028 || n == 0x2029 || n == 0x202F || n == 0x205F
    || n == 0x3000

/-- A text without the blanks at its ends. -/
def trim (cs : List Char) : List Char :=
  ((cs.dropWhile isBlank).reverse.dropWhile isBlank).reverse

/-- Cuts a text at every character of a class; `current` and `seen` hold the part begun and the
parts finished, in reverse. -/
def cutAt (separates : Char → Bool) (seen : List (List Char)) (current : List Char) :
    List Char → List (List Char)
  | [] => (current.reverse :: seen).reverse
  | c :: rest =>
    if separates c then cutAt separates (current.reverse :: seen) [] rest
    else cutAt separates seen (c :: current) rest

/-- The lines of a text that are not blank, without the blanks at their ends. -/
def lines (s : String) : List (List Char) :=
  ((cutAt (· == '\n') [] [] s.toList).map trim).filter fun line => !line.isEmpty

/-- The fields of a line, which stand between runs of blanks. -/
def fields (line : List Char) : List (List Char) :=
  (cutAt isBlank [] [] line).filter fun field => !field.isEmpty

end Telemetry.Text
