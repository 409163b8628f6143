import Telemetry.Json
import Telemetry.Number.Integer
import Telemetry.Text.Blank

/-!
# Addresses

An address is a host and a port with a colon between them. A host is a number of version four, a
number of version six, which stands in brackets where a port follows it, or a name.
`Address.fault?` is why a text cannot be used as an address, given what is against its host;
`Host.listenFault?` and `Host.connectFault` are what is against one on a machine without networks.
-/
namespace Telemetry

/-- The host of an address. -/
inductive Host where
  | v4 (number : Nat)
  /-- Eight groups of sixteen bits, the first one first. -/
  | v6 (groups : List Nat)
  | name (text : String)
deriving DecidableEq, Repr

namespace Host

/-- Reads digits of a base, of which there is at least one. -/
def readDigits (base : Nat) (cs : List Char) : Option Nat :=
  if cs.isEmpty then none
  else cs.foldlM (fun n c =>
    ((Json.hexDigit? c).filter fun d => d < base).map fun d => n * base + d) 0

/-- Reads one part of a number of version four: hexadecimal behind `0x`, octal behind another zero,
else decimal. -/
def readPart : List Char → Option Nat
  | '0' :: 'x' :: digits | '0' :: 'X' :: digits => readDigits 16 digits
  | '0' :: c :: digits => readDigits 8 (c :: digits)
  | digits => readDigits 10 digits

/-- The number of parts that are bytes but for the last one, which fills what is left of four
bytes. -/
def joinParts (seen : Nat) : (room : Nat) → List Nat → Option Nat
  | room + 1, [last] =>
    if last < Nat.pow 256 (room + 1) then some (seen * Nat.pow 256 (room + 1) + last) else none
  | room + 1, part :: rest => if part < 256 then joinParts (seen * 256 + part) room rest else none
  | _, _ => none

/-- Reads a number of version four, which has one to four parts with points between them. -/
def readV4 (cs : List Char) : Option Nat :=
  ((Text.cutAt (· == '.') [] [] cs).mapM readPart).bind (joinParts 0 4)

/-- Reads one group of a number of version six. -/
def readGroup (cs : List Char) : Option Nat := if cs.length ≤ 4 then readDigits 16 cs else none

/-- Reads a decimal byte; zeros may not lead. -/
def readByte : List Char → Option Nat
  | '0' :: _ :: _ => none
  | cs => (readDigits 10 cs).filter (· < 256)

/-- Reads the last two groups of a number of version six from four bytes with points between
them. -/
def readBytes (cs : List Char) : Option (List Nat) := do
  match ← (Text.cutAt (· == '.') [] [] cs).mapM readByte with
  | [a, b, c, d] => some [a * 256 + b, c * 256 + d]
  | _ => none

/-- Reads groups with colons between them; the last two may be written as four bytes. -/
def readGroups (cs : List Char) : Option (List Nat) :=
  if cs.isEmpty then some []
  else
    let parts := Text.cutAt (· == ':') [] [] cs
    let last := parts.getLast?.getD []
    if last.contains '.' then do
      return (← parts.dropLast.mapM readGroup) ++ (← readBytes last)
    else parts.mapM readGroup

/-- Cuts a text at the first two colons in a row. -/
def cutGap (seen : List Char) : List Char → Option (List Char × List Char)
  | ':' :: ':' :: rest => some (seen.reverse, rest)
  | c :: rest => cutGap (c :: seen) rest
  | [] => none

/-- Reads a number of version six: eight groups, or fewer with a gap that stands for at least one
group of zeros. -/
def readV6 (cs : List Char) : Option (List Nat) :=
  match cutGap [] cs with
  | none => (readGroups cs).filter fun groups => groups.length = 8
  | some (front, back) => do
    let front ← readGroups front
    let back ← readGroups back
    let missing := 8 - (front.length + back.length)
    if missing = 0 then none else return front ++ List.replicate missing 0 ++ back

/-- The host that a text stands for. -/
def ofText (text : String) : Host :=
  let cs := text.toList
  match readV4 cs with
  | some n => v4 n
  | none =>
    let inner := if cs.head? = some '[' ∧ cs.getLast? = some ']' then cs.tail.dropLast else cs
    match readV6 inner with
    | some groups => v6 groups
    | none => name text

/-- Whether a text can be asked for as a name: it has at most 253 characters and parts of up to 63
letters, digits, hyphens and low lines with points between them, begins with no hyphen and may end
in a point. -/
def isName (text : String) : Bool :=
  let cs := text.toList
  let cs := if cs.getLast? = some '.' then cs.dropLast else cs
  let isPart (part : List Char) :=
    0 < part.length && part.length ≤ 63 && part.all fun c => c.isAlphanum || c = '-' || c = '_'
  cs.length ≤ 253 && cs.head? ≠ some '-' && (Text.cutAt (· == '.') [] [] cs).all isPart

/-- What is reported about a text that is no name. -/
def unknown : String := "failed to lookup address information: Name or service not known"

/-- What is against a name on a machine without networks, which knows no name but its own and has
nobody to ask. -/
def nameFault? (text : String) : Option String :=
  if text.toLower = "localhost" then none
  else if isName text then
    some "failed to lookup address information: Temporary failure in name resolution"
  else some unknown

/-- Whether groups stand for a number of version four. -/
def isMapped (groups : List Nat) : Bool := groups.take 6 = [0, 0, 0, 0, 0, 65535]

/-- What is reported about a number that belongs to another machine. -/
def notAssigned : String := "Cannot assign requested address (os error 99)"

/-- What is reported where no network leads to a number. -/
def noNetwork : String := "Network is unreachable (os error 101)"

/-- What is against listening on a host on a machine without networks: of version six nothing can be
used but the unspecified number and what stands for version four. -/
def listenFault? : Host → Option String
  | v4 _ => none
  | v6 groups =>
    if isMapped groups ∨ groups = List.replicate 8 0 then none else some notAssigned
  | name text => nameFault? text

/-- What is against a connection to a host from a machine without networks: there is no way to
numbers of version four, to what stands for them and to groups of machines, no number of its own to
come from for the rest of version six, and no link for the numbers that need one. -/
def connectFault : Host → String
  | v4 _ => noNetwork
  | v6 groups =>
    let first := groups.headD 0
    if isMapped groups ∨ 0xFF00 ≤ first then noNetwork
    else if 0xFE80 ≤ first ∧ first < 0xFEC0 then "Invalid argument (os error 22)"
    else notAssigned
  | name text => (nameFault? text).getD noNetwork

end Host

namespace Address

/-- The host and the port of an address, cut at its last colon. -/
def split? (address : String) : Option (String × String) :=
  let reversed := address.toList.reverse
  match reversed.dropWhile (· ≠ ':') with
  | [] => none
  | _ :: host =>
    some (String.ofList host.reverse, String.ofList (reversed.takeWhile (· ≠ ':')).reverse)

/-- Why a text cannot be used as an address, if so, given what is against a host. -/
def fault? (against : Host → Option String) (address : String) : Option String :=
  match split? address with
  | none => some "invalid socket address"
  | some (host, port) =>
    match IntegerRange.word16.parseText port with
    | .ok _ => if host = "" then some Host.unknown else against (.ofText host)
    | .error _ => some "invalid port value"

end Address

end Telemetry
