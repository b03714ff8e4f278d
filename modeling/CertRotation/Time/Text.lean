import CertRotation.Text.Basic
import CertRotation.Time.Instant

/-!
The text of instants and durations. A fraction has the fewest of 3, 6 or 9 digits that show it
exactly, and none when it is zero; the second of a leap second is 60.
-/

namespace CertRotation

namespace Time

/-- A year: four digits, and a sign when it is not one of 0 to 9999. -/
def yearText (year : Int) : String :=
  if 0 ≤ year ∧ year ≤ 9999 then Text.padded 4 year.toNat
  else (if year < 0 then "-" else "+") ++ Text.padded 4 year.natAbs

/-- A fraction of a second with its point. -/
def fractionText (nanos : Nat) : String :=
  if nanos = 0 then ""
  else if nanos % 1000000 = 0 then "." ++ Text.padded 3 (nanos / 1000000)
  else if nanos % 1000 = 0 then "." ++ Text.padded 6 (nanos / 1000)
  else "." ++ Text.padded 9 nanos

/-- A date as year, month and day with hyphens. -/
def Date.text (date : Date) : String :=
  yearText date.year ++ "-" ++ Text.padded 2 date.month ++ "-" ++ Text.padded 2 date.day

end Time

namespace Instant

/-- The time of day with its fraction. -/
def clockText (t : Instant) : String :=
  let second := t.timeOfDay.toNat
  let (extra, nanos) := if t.inLeapSecond then (1, t.nanos - 1000000000) else (0, t.nanos)
  Text.padded 2 (second / 3600) ++ ":" ++ Text.padded 2 (second / 60 % 60) ++ ":" ++
    Text.padded 2 (second % 60 + extra) ++ Time.fractionText nanos

def text (t : Instant) : String :=
  t.date.text ++ " " ++ t.clockText ++ " UTC"

/-- The text in data files: the date, `T`, the time of day, `Z`. -/
def isoText (t : Instant) : String :=
  t.date.text ++ "T" ++ t.clockText ++ "Z"

end Instant

namespace Duration

/-- Seconds with a fraction that has no zeros at its end; no duration at all is `P0D`. -/
def text (d : Duration) : String :=
  let total := d.nanoseconds.natAbs
  if total = 0 then "P0D"
  else
    let fraction := (Text.padded 9 (total % 1000000000)).toList.reverse.dropWhile (· == '0')
    (if d.nanoseconds < 0 then "-PT" else "PT") ++ toString (total / 1000000000) ++
      (if fraction.isEmpty then "" else "." ++ String.ofList fraction.reverse) ++ "S"

end Duration

end CertRotation
