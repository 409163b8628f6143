import Telemetry.Metric.Buffer

/-!
# Histograms

The values of a window between its extremes, counted in buckets of equal width. NaN is left out of
the extremes, and what cannot be placed goes to the first bucket.
-/
namespace Telemetry

/-- The extremes of a window and the number of samples in each bucket between them. -/
structure Histogram where
  min : Double
  max : Double
  counts : Array Nat
deriving Repr

namespace Histogram

/-- The smallest and the largest value, leaving out NaN. -/
def extremes (window : List Sample) : Double × Double :=
  window.foldl (fun (lo, hi) s => (lo.min s.value, hi.max s.value))
    (.infinity, .negativeInfinity)

/-- The bucket of a value among `buckets` between `min` and `max`; a window without width has one
bucket in use, and the largest value belongs to the last bucket. -/
def bucketOf (buckets : Nat) (min max value : Double) : Nat :=
  let span := max - min
  if span.eq .zero then 0
  else Nat.min ((value - min) / span * .ofNat buckets).truncate (buckets - 1)

/-- The histogram of a window in `buckets` buckets. -/
def ofWindow (window : List Sample) (buckets : Nat) : Except Failure Histogram :=
  if buckets = 0 then .error (.invalidArgs "bucket_count must be > 0")
  else
    let none := Array.replicate buckets 0
    if window.isEmpty then .ok ⟨.zero, .zero, none⟩
    else
      let (min, max) := extremes window
      .ok ⟨min, max, window.foldl
        (fun counts s => counts.modify (bucketOf buckets min max s.value) (· + 1)) none⟩

/-- The number of samples in all buckets. -/
def total (h : Histogram) : Nat := h.counts.foldl (· + ·) 0

/-- A line with the number of buckets and the extremes, then one line for each bucket. -/
def listing (h : Histogram) : String :=
  toString h.counts.size ++ ", " ++ h.min.text ++ ", " ++ h.max.text ++ "\n"
    ++ String.join (h.counts.toList.map fun n => toString n ++ "\n")

end Histogram

/-- The histogram of a buffer, whose listing is handed to `write`. Where there is no histogram, nothing
is written. -/
def SampleBuffer.dumpHistogram (b : SampleBuffer) (buckets : Nat)
    (write : String → Except Failure Unit) : Except Failure Histogram := do
  let h ← Histogram.ofWindow b.window buckets
  write h.listing
  return h

end Telemetry
