import Telemetry.Failure
import Telemetry.Number.Integer
import Telemetry.Text.Blank

/-!
# Address files

Where a provider finds the aggregation tier. The aggregator file holds a number and then at least as
many lines of an address, a provider id and a database name; the reducer file holds one line of an
address and a provider id. Blank lines do not count.
-/
namespace Telemetry

/-- Where an aggregator is and which database it keeps. -/
structure AggregatorAddress where
  address : String
  provider : UInt16
  dbName : String
deriving DecidableEq, Repr

/-- Where the reducer is. -/
structure ReducerAddress where
  address : String
  provider : UInt16
deriving DecidableEq, Repr

namespace Addresses

/-- Reads the provider id in a line of a file. -/
def readProvider (line : Nat) (field : List Char) : Except Failure UInt16 :=
  match IntegerRange.word16.parse field with
  | .ok n => .ok (UInt16.ofNat n.toNat)
  | .error _ => .error (.invalidConfig ("line " ++ toString line ++ ": bad provider id '"
      ++ String.ofList field ++ "'"))

/-- Reads one line of the aggregator file. -/
def readAggregator (line : Nat) (text : List Char) : Except Failure AggregatorAddress :=
  match Text.fields text with
  | [address, provider, dbName] =>
    (readProvider line provider).map fun id =>
      ⟨String.ofList address, id, String.ofList dbName⟩
  | _ => .error (.invalidConfig ("line " ++ toString line
      ++ ": expected 'address provider_id db_name'"))

/-- Reads lines of the aggregator file, the first of which has the given number. -/
def readAggregators (line : Nat) : List (List Char) → Except Failure (List AggregatorAddress)
  | [] => .ok []
  | text :: rest =>
    match readAggregator line text with
    | .error failure => .error failure
    | .ok address => (readAggregators (line + 1) rest).map (address :: ·)

/-- The aggregators of a file: as many lines as it announces, and no fewer. -/
def aggregators (text : String) : Except Failure (List AggregatorAddress) :=
  match Text.lines text with
  | [] => .error (.invalidConfig "aggregator file is empty")
  | header :: lines =>
    match IntegerRange.word64.parse header with
    | .error _ => .error (.invalidConfig ("bad aggregator count '" ++ String.ofList header ++ "'"))
    | .ok count =>
      match readAggregators 2 (lines.take count.toNat) with
      | .error failure => .error failure
      | .ok found =>
        if found.length = count.toNat then .ok found
        else .error (.invalidConfig ("aggregator file announces " ++ toString count
          ++ " entries but lists " ++ toString found.length))

/-- The reducer of a file: its first line. -/
def reducer (text : String) : Except Failure ReducerAddress :=
  match Text.lines text with
  | [] => .error (.invalidConfig "reducer file is empty")
  | line :: _ =>
    match Text.fields line with
    | [address, provider] => (readProvider 1 provider).map fun id => ⟨String.ofList address, id⟩
    | _ => .error (.invalidConfig "expected 'address provider_id'")

end Addresses

end Telemetry
