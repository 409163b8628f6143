/-!
# Kinds of metrics and reduction operators

A metric's kind says which values may be recorded, its operator how a window of samples is condensed
before it leaves the provider.
-/
namespace Telemetry

/-- What a metric records. -/
inductive Kind where
  /-- A total that never falls. -/
  | counter
  /-- Durations, which are not negative. -/
  | timer
  /-- Any value at a point in time. -/
  | gauge
deriving DecidableEq, Repr

namespace Kind

/-- The name of a kind inside messages. -/
def name : Kind → String
  | counter => "Counter"
  | timer => "Timer"
  | gauge => "Gauge"

/-- The letter of a kind. -/
def letter : Kind → Char
  | counter => 'c'
  | timer => 't'
  | gauge => 'g'

/-- The kind of a letter. -/
def ofLetter? (c : Char) : Option Kind :=
  if c = 'c' then some counter else if c = 't' then some timer
  else if c = 'g' then some gauge else none

theorem ofLetter?_letter (k : Kind) : ofLetter? k.letter = some k := by cases k <;> rfl

/-- Whether the extreme values of a window are taken from its two ends. -/
def isMonotonic : Kind → Bool
  | counter | timer => true
  | gauge => false

end Kind

/-- How a window of samples is condensed. -/
inductive Operator where
  /-- Not at all: the metric takes no part in reductions. -/
  | null
  | sum
  | avg
  | min
  | max
  /-- The samples themselves. -/
  | store
  /-- The values that stand out from the others. -/
  | anomaly
deriving DecidableEq, Repr

namespace Operator

/-- Every operator. -/
def all : List Operator := [null, sum, avg, min, max, store, anomaly]

/-- The name of an operator in keys and requests. -/
def name : Operator → String
  | null => "NULL"
  | sum => "SUM"
  | avg => "AVG"
  | min => "MIN"
  | max => "MAX"
  | store => "STORE"
  | anomaly => "ANOMALY"

/-- Whether two texts differ only in the case of the letters `A` to `Z`. -/
def sameLetters (a b : List Char) : Bool := a.map Char.toLower = b.map Char.toLower

/-- The operator of a name; the case of its letters does not matter. -/
def ofName? (s : String) : Option Operator :=
  all.find? fun op => sameLetters op.name.toList s.toList

end Operator

end Telemetry
