/-!
# Durations as text

A duration of whole milliseconds is written in the largest unit of which it has one, with a fraction
of a second only as long as needed.
-/
namespace Telemetry.Text

/-- The digits of thousandths behind a decimal point, without trailing zeros. -/
def thousandths (n : Nat) : String :=
  let digits := [n / 100 % 10, n / 10 % 10, n % 10].reverse.dropWhile (· = 0)
  if digits.isEmpty then "" else "." ++ String.join (digits.reverse.map toString)

/-- A duration in milliseconds as a message shows it. -/
def milliseconds (ms : Nat) : String :=
  if ms = 0 then "0ns"
  else if ms < 1000 then toString ms ++ "ms"
  else toString (ms / 1000) ++ thousandths (ms % 1000) ++ "s"

end Telemetry.Text
