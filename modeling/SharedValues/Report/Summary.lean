import SharedValues.Report.Basic

/-!
# The summary of a report

The counts of a report as lines of text, with the share of passes in percent, and the failures
below.

The share is a binary floating-point number, which is an exact fraction. It is written with a fixed
number of decimal places by rounding this fraction to the nearest multiple of the last place; a tie
goes to the even neighbour.
-/

namespace SharedValues

namespace Fixed

/-- The quotient rounded to the nearest integer, a tie to the even one. -/
def roundDiv (num den : Nat) : Nat :=
  let q := num / den
  let twice := 2 * (num % den)
  if twice < den then q
  else if den < twice then q + 1
  else if q % 2 = 0 then q else q + 1

/-- The exact magnitude of a finite floating-point number, as numerator and denominator. -/
def magnitude (x : Float) : Nat × Nat :=
  let bits := x.toBits.toNat
  let leading := Nat.pow 2 52
  let exponent := bits / leading % 2048
  let fraction := bits % leading
  let significand := if exponent = 0 then fraction else leading + fraction
  let scale := max exponent 1
  if 1075 ≤ scale then (significand * Nat.pow 2 (scale - 1075), 1)
  else (significand, Nat.pow 2 (1075 - scale))

/-- The digits of a number of tenths, hundredths and so on, with a point before the places. -/
def places (count n : Nat) : List Char :=
  let digits := Nat.toDigits 10 n
  let padded := List.replicate (count + 1 - digits.length) '0' ++ digits
  padded.take (padded.length - count) ++ '.' :: padded.drop (padded.length - count)

/-- A finite floating-point number that is not negative, with this many places. -/
def write (count : Nat) (x : Float) : String :=
  let (num, den) := magnitude x
  String.ofList (places count (roundDiv (num * Nat.pow 10 count) den))

end Fixed

namespace Report

/-- The share of passes in percent; zero for a report of no verdicts. -/
def passRate (r : Report) : Float :=
  if r.total = 0 then 0.0 else r.passed.toFloat / r.total.toFloat * 100.0

/-- A percentage has one place, and a tie goes to the even neighbour. -/
def percentage (x : Float) : String := Fixed.write 1 x

/-- A count in decimal digits. -/
def countText (n : UInt64) : String := n.toNat.repr

/-- The counts of a report. -/
def summary (r : Report) : String :=
  "Conformance Results:\nTotal: " ++ countText r.total ++
    "\nPassed: " ++ countText r.passed ++ " (" ++ percentage r.passRate ++ "%)" ++
    "\nFailed: " ++ countText r.failed ++
    "\nErrored: " ++ countText r.errored

/-- A failure on two lines. -/
def failureText (failure : String × String) : String :=
  "  - " ++ failure.1 ++ "\n    Reason: " ++ failure.2 ++ "\n"

/-- The counts of a report, and its failures if it has any. -/
def detailedSummary (r : Report) : String :=
  if r.failures.isEmpty then r.summary
  else r.summary ++ "\n\nFailures:\n" ++ String.join (r.failures.map failureText)

end Report

end SharedValues
