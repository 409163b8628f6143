import Telemetry.Metric.Kind
import Telemetry.Metric.Sample

/-!
# Statistics of a window

Sums run from the oldest sample to the newest and start at negative zero, so that a window of zeros
keeps their sign. Counters and timers have their extremes at the ends of the window; a gauge's
window is searched.
-/
namespace Telemetry.Statistics

/-- The sum of numbers, from the left. -/
def sumOf (values : List Double) : Double := values.foldl (· + ·) .negativeZero

/-- The values of a window. -/
def values (window : List Sample) : List Double := window.map Sample.value

/-- The sum of the values. -/
def sum (window : List Sample) : Double := sumOf (values window)

/-- The mean of the values, if there are any. -/
def mean? (window : List Sample) : Option Double :=
  if window.isEmpty then none else some (sum window / .ofNat window.length)

/-- The least of the values, found by search. -/
def least? : List Double → Option Double
  | [] => none
  | x :: rest => some (rest.foldl Double.min x)

/-- The greatest of the values, found by search. -/
def greatest? : List Double → Option Double
  | [] => none
  | x :: rest => some (rest.foldl Double.max x)

/-- The minimum of a window of the given kind. -/
def min? (kind : Kind) (window : List Sample) : Option Double :=
  if kind.isMonotonic then window.head?.map Sample.value else least? (values window)

/-- The maximum of a window of the given kind. -/
def max? (kind : Kind) (window : List Sample) : Option Double :=
  if kind.isMonotonic then window.getLast?.map Sample.value else greatest? (values window)

/-- The number of standard deviations beyond which a value stands out. -/
def outlierSigmas : Double := .ofNat 3

/-- Whether a value lies further than three standard deviations from the mean of the other values,
given the number of all values, their mean and the sum of their squared deviations from it. -/
def isOutlier (count mean squares value : Double) : Bool :=
  let others := count - .ofNat 1
  let deviation := value - mean
  let othersMean := (count * mean - value) / others
  let othersSquares := (squares - deviation * deviation * count / others).max .zero
  let sigma := (othersSquares / others).sqrt
  (outlierSigmas * sigma).lt (value - othersMean).abs

/-- The values that stand out from the others, oldest first. Fewer than three values have none. -/
def outliers (window : List Sample) : List Double :=
  if window.length < 3 then []
  else
    let count := Double.ofNat window.length
    let mean := sum window / count
    let squares := sumOf ((values window).map fun v => (v - mean) * (v - mean))
    (values window).filter (isOutlier count mean squares)

end Telemetry.Statistics
