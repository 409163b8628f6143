import Telemetry.Bytes

/-!
# UTF-8

Reading bytes as text, strictly and leniently. `Bytes.toText` accepts exactly the UTF-8 encodings
of texts and otherwise tells where the first ill-formed subsequence starts and how long it is.
`Bytes.toTextLossy` never fails: each maximal ill-formed subsequence becomes U+FFFD. The two agree
on well-formed input, so a text that was encoded is read back unchanged by both.
-/
namespace Telemetry

/-- Where and how a byte string stops being UTF-8. -/
inductive Utf8Fault where
  /-- The `width` bytes from `index` on begin no character. -/
  | illFormed (index width : Nat)
  /-- The bytes from `index` on begin a character that the input cuts off. -/
  | truncated (index : Nat)
deriving DecidableEq, Repr

/-- What a reader is told about a byte string that is not UTF-8. -/
def Utf8Fault.message : Utf8Fault → String
  | illFormed index width =>
    "invalid utf-8 sequence of " ++ toString width ++ " bytes from index " ++ toString index
  | truncated index => "incomplete utf-8 byte sequence from index " ++ toString index

namespace Utf8

/-- What the first bytes of an input are. -/
inductive Head where
  | char (c : Char) (width : Nat)
  | illFormed (width : Nat)
  | truncated
deriving DecidableEq, Repr

/-- Whether a byte lies in a closed range. -/
def within (lo hi b : UInt8) : Bool := lo ≤ b && b ≤ hi

/-- Whether a byte continues a multi-byte character. -/
def isContinuation (b : UInt8) : Bool := within 0x80 0xBF b

/-- The six payload bits of a continuation byte. -/
def payload (b : UInt8) : Nat := b.toNat % 64

/-- How many bytes follow a first byte, and the range allowed for the first of them. The narrowed
ranges exclude over-long forms, surrogates and numbers above U+10FFFF. -/
def follow (b : UInt8) : Option (Nat × UInt8 × UInt8) :=
  if within 0xC2 0xDF b then some (1, 0x80, 0xBF)
  else if b = 0xE0 then some (2, 0xA0, 0xBF)
  else if b = 0xED then some (2, 0x80, 0x9F)
  else if within 0xE1 0xEF b then some (2, 0x80, 0xBF)
  else if b = 0xF0 then some (3, 0x90, 0xBF)
  else if within 0xF1 0xF3 b then some (3, 0x80, 0xBF)
  else if b = 0xF4 then some (3, 0x80, 0x8F)
  else none

/-- Reads the `missing` bytes still owed to a character of which `seen` bytes are read already. -/
def continuation (number seen : Nat) : (missing : Nat) → (lo hi : UInt8) → Bytes → Head
  | 0, _, _, _ => .char (Char.ofNat number) seen
  | _ + 1, _, _, [] => .truncated
  | missing + 1, lo, hi, b :: rest =>
    if within lo hi b then
      continuation (number * 64 + payload b) (seen + 1) missing 0x80 0xBF rest
    else .illFormed seen

/-- Classifies the front of a non-empty input. -/
def head (b : UInt8) (rest : Bytes) : Head :=
  if b < 0x80 then .char (Char.ofNat b.toNat) 1
  else match follow b with
    | none => .illFormed 1
    | some (missing, lo, hi) =>
      continuation (b.toNat % Nat.pow 2 (6 - missing)) 1 missing lo hi rest

/-- The first fault of an input whose next `skip` bytes belong to a character already read. -/
def firstFault (skip index : Nat) : Bytes → Option Utf8Fault
  | [] => none
  | b :: rest =>
    match skip with
    | skip + 1 => firstFault skip (index + 1) rest
    | 0 =>
      match head b rest with
      | .char _ width => firstFault (width - 1) (index + 1) rest
      | .illFormed width => some (.illFormed index width)
      | .truncated => some (.truncated index)

/-- The stand-in for bytes that are no character. -/
def replacement : Char := Char.ofNat 0xFFFD

/-- The characters of an input, in reverse behind `seen`, with U+FFFD for each maximal ill-formed
subsequence; the next `skip` bytes belong to a character already read. -/
def lossyChars (seen : List Char) (skip : Nat) : Bytes → List Char
  | [] => seen
  | b :: rest =>
    match skip with
    | skip + 1 => lossyChars seen skip rest
    | 0 =>
      match head b rest with
      | .char c width => lossyChars (c :: seen) (width - 1) rest
      | .illFormed width => lossyChars (replacement :: seen) (width - 1) rest
      | .truncated => replacement :: seen

end Utf8

namespace Bytes

/-- The text that these bytes encode, or the first place where they encode none. -/
def toText (b : Bytes) : Except Utf8Fault String :=
  match String.fromUTF8? ⟨b.toArray⟩ with
  | some s => .ok s
  | none => .error ((Utf8.firstFault 0 0 b).getD (.truncated b.length))

/-- The text that these bytes encode, with U+FFFD for each maximal ill-formed subsequence. -/
def toTextLossy (b : Bytes) : String :=
  match String.fromUTF8? ⟨b.toArray⟩ with
  | some s => s
  | none => String.ofList (Utf8.lossyChars [] 0 b).reverse

theorem fromUTF8?_ofText (s : String) : String.fromUTF8? ⟨(ofText s).toArray⟩ = some s := by
  have h : (⟨(ofText s).toArray⟩ : ByteArray) = s.toByteArray := by simp [ofText]
  rw [h]
  simp [String.fromUTF8?, String.fromUTF8, s.isValidUTF8]

@[simp] theorem toText_ofText (s : String) : toText (ofText s) = .ok s := by
  simp [toText, fromUTF8?_ofText]

@[simp] theorem toTextLossy_ofText (s : String) : toTextLossy (ofText s) = s := by
  simp [toTextLossy, fromUTF8?_ofText]

end Bytes

end Telemetry
