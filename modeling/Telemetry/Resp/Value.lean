import Telemetry.Text.Utf8
import Telemetry.Text.Quoted

/-!
# Protocol values

Requests, replies and pushes are all values of one self-delimiting format: single-line texts and
errors, integers, length-prefixed byte strings and arrays of values. `Value.encode` writes a value;
`Value.quoted` is how messages quote one.
-/
namespace Telemetry.Resp

/-- A value of the wire format. -/
inductive Value where
  /-- A text on one line. -/
  | simple (text : String)
  /-- An error text on one line. -/
  | error (text : String)
  | integer (n : Int64)
  | bulk (data : Bytes)
  | nilBulk
  | array (items : List Value)
  | nilArray
deriving Inhabited

namespace Value

/-- A byte string that holds a text. -/
def text (s : String) : Value := bulk (Bytes.ofText s)

/-- Carriage return and line feed. -/
def lineEnd : Bytes := [13, 10]

/-- A decimal number as bytes. -/
def decimal (n : Nat) : Bytes := .ofText (toString n)

/-- The decimal text of an integer as bytes. -/
def decimalInt (n : Int) : Bytes := .ofText (toString n)

/-- The wire form of a value. -/
def encode : Value → Bytes
  | simple t => 43 :: Bytes.ofText t ++ lineEnd
  | error t => 45 :: Bytes.ofText t ++ lineEnd
  | integer n => 58 :: decimalInt n.toInt ++ lineEnd
  | bulk data => 36 :: decimal data.length ++ lineEnd ++ data ++ lineEnd
  | nilBulk => [36, 45, 49, 13, 10]
  | array items => 42 :: decimal items.length ++ lineEnd ++ items.flatMap encode
  | nilArray => [42, 45, 49, 13, 10]

/-- How a message quotes a value. -/
def quoted : Value → String
  | simple t => "SimpleString(" ++ Text.quoted t ++ ")"
  | error t => "Error(" ++ Text.quoted t ++ ")"
  | integer n => "Integer(" ++ toString n.toInt ++ ")"
  | bulk data => "BulkString(Some(" ++ Text.quotedBytes data ++ "))"
  | nilBulk => "BulkString(None)"
  | array items => "Array(Some([" ++ String.intercalate ", " (items.map quoted) ++ "]))"
  | nilArray => "Array(None)"

/-- Whether two values are the same. -/
def beq : Value → Value → Bool
  | simple a, simple b => a == b
  | error a, error b => a == b
  | integer a, integer b => a == b
  | bulk a, bulk b => a == b
  | nilBulk, nilBulk => true
  | array a, array b => a.length == b.length && (a.zip b).attach.all fun ⟨(x, y), _⟩ => beq x y
  | nilArray, nilArray => true
  | _, _ => false
termination_by v => v
decreasing_by
  have := List.of_mem_zip ‹_›
  have := List.sizeOf_lt_of_mem this.1
  simp_wf
  omega

instance : BEq Value := ⟨beq⟩

end Value

end Telemetry.Resp
