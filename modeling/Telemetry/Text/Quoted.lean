import Telemetry.Bytes
import Telemetry.Text.Printable

/-!
# Quoted text

How texts and byte strings are shown inside messages: between double quotes, with a backslash before
the quote, the backslash and the usual control characters. Other characters that cannot be shown are
spelled out, `\u{…}` in a text and `\x..` in a byte string.
-/
namespace Telemetry.Text

/-- A character inside a quoted text. -/
def quotedChar (c : Char) : List Char :=
  if c = '"' then ['\\', '"']
  else if c = '\\' then ['\\', '\\']
  else if c = '\n' then ['\\', 'n']
  else if c = '\r' then ['\\', 'r']
  else if c = '\t' then ['\\', 't']
  else if c.toNat = 0 then ['\\', '0']
  else if isSpelledOut c then ['\\', 'u', '\x7b'] ++ (hexText c.toNat).toList ++ ['\x7d']
  else [c]

/-- A text between double quotes. -/
def quoted (s : String) : String :=
  String.ofList ('"' :: s.toList.flatMap quotedChar ++ ['"'])

/-- A byte inside a quoted byte string. -/
def quotedByte (b : UInt8) : List Char :=
  if b = 34 then ['\\', '"']
  else if b = 92 then ['\\', '\\']
  else if b = 10 then ['\\', 'n']
  else if b = 13 then ['\\', 'r']
  else if b = 9 then ['\\', 't']
  else if b = 0 then ['\\', '0']
  else if 0x20 ≤ b ∧ b ≤ 0x7E then [Char.ofNat b.toNat]
  else ['\\', 'x'] ++ (hexPadded 2 b.toNat).toList

/-- A byte string between double quotes, marked by a `b`. -/
def quotedBytes (b : Bytes) : String :=
  String.ofList (['b', '"'] ++ b.flatMap quotedByte ++ ['"'])

end Telemetry.Text
