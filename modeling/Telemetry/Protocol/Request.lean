import Telemetry.Metric.Identity
import Telemetry.Protocol.Region
import Telemetry.Resp.Parser

/-!
# Requests

A client asks a provider for the identities of its metrics (`LIST`) or for the newest samples of one
metric (`FETCH`). A request is an array of texts: the command, its arguments and, if the provider
wants one, a token. `Request.toValue` writes that array and `Request.ofValue` reads it; the reader
also takes integers for numbers, and commands in any case.
-/
namespace Telemetry

/-- What a client asks of a provider. -/
inductive Request where
  | list (provider : UInt16) (maxIds : UInt64) (token : Option String)
  | fetch (provider : UInt16) (metric : MetricId) (count : Int64) (region : RegionDescriptor)
    (token : Option String)
deriving DecidableEq, Repr

namespace Request

open Resp (Value)

/-- The provider that is asked. -/
def provider : Request → UInt16
  | list p _ _ => p
  | fetch p _ _ _ _ => p

/-- The token that is shown. -/
def token : Request → Option String
  | list _ _ t => t
  | fetch _ _ _ _ t => t

/-- The command. -/
def name : Request → String
  | list _ _ _ => "LIST"
  | fetch _ _ _ _ _ => "FETCH"

/-- A number as an argument. -/
def number (n : Nat) : Value := .text (toString n)

/-- The arguments between the command and the token. -/
def arguments : Request → List Value
  | list p maxIds _ => [number p.toNat, number maxIds.toNat]
  | fetch p metric count region _ =>
    [number p.toNat, number metric.toNat, .text (toString count.toInt), number region.id.toNat,
      number region.length.toNat]

/-- The wire form of a request. -/
def toValue (r : Request) : Value :=
  .array (.text r.name :: r.arguments ++ (r.token.map Value.text).toList)

/-- Reads an argument that is a text. -/
def readText : Value → Except Failure String
  | .bulk data =>
    match data.toText with
    | .ok s => .ok s
    | .error _ => .error (.invalidArgs "argument is not UTF-8")
  | .simple s => .ok s
  | _ => .error (.invalidArgs "expected string argument")

/-- Reads an argument that is a number of the given range. -/
def readNumber (range : IntegerRange) : Value → Except Failure Int
  | .integer n =>
    if range.contains n.toInt then .ok n.toInt
    else .error (.invalidArgs ("integer " ++ toString n.toInt ++ " out of range"))
  | v =>
    match readText v with
    | .error failure => .error failure
    | .ok s =>
      match range.parseText s with
      | .ok n => .ok n
      | .error _ => .error (.invalidArgs ("'" ++ s ++ "' is not a valid integer"))

/-- Reads an argument of sixteen bits. -/
def readWord16 (v : Value) : Except Failure UInt16 :=
  (readNumber .word16 v).map fun n => UInt16.ofNat n.toNat

/-- Reads an argument of thirty-two bits. -/
def readWord32 (v : Value) : Except Failure UInt32 :=
  (readNumber .word32 v).map fun n => UInt32.ofNat n.toNat

/-- Reads an argument of sixty-four bits. -/
def readWord64 (v : Value) : Except Failure UInt64 :=
  (readNumber .word64 v).map fun n => UInt64.ofNat n.toNat

/-- Reads an argument of sixty-four bits that may be negative. -/
def readInt64 (v : Value) : Except Failure Int64 := (readNumber .int64 v).map Int64.ofInt

/-- Reads the token that may end a request. -/
def readToken : List Value → Except Failure (Option String)
  | [] => .ok none
  | v :: _ => (readText v).map some

/-- The failure of a command with too many or too few arguments. -/
def wrongArity (command : String) : Failure :=
  .invalidArgs ("wrong number of arguments for '" ++ command ++ "'")

/-- Reads the arguments of `LIST`. -/
def readList : List Value → Except Failure Request
  | provider :: maxIds :: token =>
    if 1 < token.length then .error (wrongArity "LIST")
    else do return list (← readWord16 provider) (← readWord64 maxIds) (← readToken token)
  | _ => .error (wrongArity "LIST")

/-- Reads the arguments of `FETCH`. -/
def readFetch : List Value → Except Failure Request
  | provider :: metric :: count :: region :: length :: token =>
    if 1 < token.length then .error (wrongArity "FETCH")
    else do
      let provider ← readWord16 provider
      let metric ← readWord32 metric
      let count ← readInt64 count
      let region ← readWord64 region
      let length ← readWord64 length
      return fetch provider ⟨metric⟩ count ⟨region, length⟩ (← readToken token)
  | _ => .error (wrongArity "FETCH")

/-- Reads a request from its wire form. Arguments are looked at from the left, so the first faulty
one is reported. -/
def ofValue : Value → Except Failure Request
  | .array (command :: args) =>
    match readText command with
    | .error failure => .error failure
    | .ok s =>
      let command := s.map Char.toUpper
      if command = "LIST" then readList args
      else if command = "FETCH" then readFetch args
      else .error (.unsupported ("unknown request '" ++ command ++ "'"))
  | _ => .error (.invalidArgs "expected non-empty array")

end Request

end Telemetry
