import Telemetry.Metric.Kind

/-!
# Keys of reduced values

A reduced value is stored under the names of its metric and the name of its operator, joined by
underscores. Names may hold underscores themselves, so a key is cut at its last one.
-/
namespace Telemetry.Key

/-- The names of a metric joined by underscores: namespace, name and the tags in their order. -/
def stringify (ns name : String) (tags : List String) : String :=
  String.intercalate "_" (ns :: name :: tags)

/-- The key of a reduced value. -/
def encode (stringified : String) (op : Operator) : String := stringified ++ "_" ++ op.name

/-- Cuts a text at the last occurrence of a character. -/
def splitLast? (separator : Char) (cs : List Char) : Option (List Char × List Char) :=
  match cs.reverse.span (· != separator) with
  | (_, []) => none
  | (back, _ :: front) => some (front.reverse, back.reverse)

/-- The names and the operator of a key: what stands before and behind its last underscore. -/
def decode? (key : String) : Option (String × Operator) :=
  match splitLast? '_' key.toList with
  | none => none
  | some (front, back) =>
    if front.isEmpty then none
    else (Operator.ofName? (String.ofList back)).map fun op => (String.ofList front, op)

end Telemetry.Key
