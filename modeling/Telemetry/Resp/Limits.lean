import Telemetry.Resp.Value

/-!
# Limits on protocol values

A reader bounds what it accepts from the other side. `Limits.Admits` says which values keep to the
bounds and can be written on the wire at all.
-/
namespace Telemetry.Resp

/-- Bounds on what a reader accepts. -/
structure Limits where
  /-- How deep arrays may nest. -/
  maxDepth : Nat
  /-- The most elements in an array. -/
  maxArray : Nat
  /-- The most bytes in a byte string. -/
  maxBulk : Nat
  /-- The most bytes that are kept for a value that is not complete. -/
  maxFrame : Nat
deriving DecidableEq, Repr

namespace Limits

/-- The bounds for replies and pushes. -/
def peer : Limits :=
  { maxDepth := 8
    maxArray := 1024 * 1024
    maxBulk := 512 * 1024 * 1024
    maxFrame := 512 * 1024 * 1024 + 64 * 1024 }

/-- The bounds for requests, which are flat arrays of short arguments. -/
def request : Limits :=
  { maxDepth := 2
    maxArray := 8
    maxBulk := 4 * 1024
    maxFrame := 64 * 1024 }

/-- Whether arrays nest at most `levels` deep in a value, arrays and byte strings keep to their
bounds, and no line holds a carriage return. -/
def admits (limits : Limits) (levels : Nat) : Value → Bool
  | .simple t | .error t => !(Bytes.ofText t).contains 13
  | .integer _ | .nilBulk => true
  | .bulk data => data.length ≤ limits.maxBulk
  | .array items =>
    match levels with
    | 0 => false
    | levels + 1 => items.length ≤ limits.maxArray && items.all (admits limits levels)
  | .nilArray => 0 < levels

/-- The values that can be written and read back under the bounds. -/
def Admits (limits : Limits) (v : Value) : Prop := limits.admits limits.maxDepth v = true

end Limits

end Telemetry.Resp
