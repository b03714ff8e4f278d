import CertRotation.Time.Calendar

/-!
Instants and the durations between them. An instant inside a leap second has the second before it
as its whole second and a fraction of a billion nanoseconds or more.
-/

namespace CertRotation

/-- A duration in nanoseconds. -/
structure Duration where
  nanoseconds : Int
deriving DecidableEq, Repr

namespace Duration

/-- The number of nanoseconds in a second. -/
def second : Int := 1000000000

def zero : Duration := ⟨0⟩

def ofSeconds (seconds : Int) : Duration := ⟨seconds * second⟩

def ofMilliseconds (milliseconds : Int) : Duration := ⟨milliseconds * 1000000⟩

/-- The longest duration: `2 ^ 63 - 1` milliseconds. -/
def max : Duration := ofMilliseconds 9223372036854775807

/-- The longest duration backwards. -/
def min : Duration := ofMilliseconds (-9223372036854775807)

instance : LE Duration := ⟨fun a b => a.nanoseconds ≤ b.nanoseconds⟩

instance (a b : Duration) : Decidable (a ≤ b) := Int.decLe _ _

instance : LT Duration := ⟨fun a b => a.nanoseconds < b.nanoseconds⟩

instance (a b : Duration) : Decidable (a < b) := Int.decLt _ _

/-- Whether a duration lies between the longest ones. -/
def inRange (d : Duration) : Bool := min ≤ d && d ≤ max

/-- Whole seconds, cut toward zero. -/
def wholeSeconds (d : Duration) : Int := d.nanoseconds.tdiv second

/-- What the whole seconds leave, with the sign of the duration. -/
def fraction (d : Duration) : Int := d.nanoseconds.tmod second

/-- Whole milliseconds, cut toward zero. -/
def wholeMilliseconds (d : Duration) : Int := d.nanoseconds.tdiv 1000000

/-- The nearest duration between two bounds. -/
def clamp (d low high : Duration) : Duration :=
  if d < low then low else if high < d then high else d

end Duration

/-- An instant: seconds from the start of 1970 in UTC, and a fraction in nanoseconds. -/
structure Instant where
  seconds : Int
  nanos : Nat
deriving DecidableEq, Repr

namespace Instant

/-- The number of seconds in a day. -/
def secondsPerDay : Int := 86400

/-- The first instant of the calendar's range. -/
def first : Instant := ⟨Time.Date.toDays ⟨-262143, 1, 1⟩ * secondsPerDay, 0⟩

/-- The last instant of the calendar's range. -/
def last : Instant := ⟨Time.Date.toDays ⟨262143, 1, 1⟩ * secondsPerDay - 1, 999999999⟩

instance : LT Instant :=
  ⟨fun a b => a.seconds < b.seconds ∨ a.seconds = b.seconds ∧ a.nanos < b.nanos⟩

instance (a b : Instant) : Decidable (a < b) :=
  inferInstanceAs (Decidable (_ ∨ _ ∧ _))

instance : LE Instant :=
  ⟨fun a b => a.seconds < b.seconds ∨ a.seconds = b.seconds ∧ a.nanos ≤ b.nanos⟩

instance (a b : Instant) : Decidable (a ≤ b) :=
  inferInstanceAs (Decidable (_ ∨ _ ∧ _))

/-- Whether the whole second lies on a day of the calendar's range. -/
def inRange (t : Instant) : Bool :=
  first.seconds ≤ t.seconds && t.seconds ≤ last.seconds

/-- The instant a number of seconds after the start of 1970, if the calendar reaches it. -/
def ofSeconds? (seconds : Int) : Option Instant :=
  let t : Instant := ⟨seconds, 0⟩
  if t.inRange then some t else none

/-- The instant a number of nanoseconds after the start of 1970. -/
def ofNanoseconds (nanoseconds : Int) : Instant :=
  ⟨nanoseconds / Duration.second, (nanoseconds % Duration.second).toNat⟩

def truncate (t : Instant) : Instant := ⟨t.seconds, 0⟩

def date (t : Instant) : Time.Date := Time.Date.ofDays (t.seconds / secondsPerDay)

/-- The seconds since midnight in UTC. -/
def timeOfDay (t : Instant) : Int := t.seconds % secondsPerDay

/-- Whether the fraction lies in a leap second. -/
def inLeapSecond (t : Instant) : Bool := t.nanos ≥ 1000000000

/-- The instant a duration later. A leap second counts only as far as the sum stays inside it. -/
def plus (t : Instant) (d : Duration) : Instant :=
  let add (seconds : Int) (nanos : Int) : Instant :=
    let total := nanos + d.fraction
    ⟨seconds + d.wholeSeconds + total / Duration.second, (total % Duration.second).toNat⟩
  if t.inLeapSecond then
    if d.wholeSeconds > 0 ∨ (d.fraction > 0 ∧ t.nanos + d.fraction ≥ 2 * Duration.second) then
      add t.seconds (t.nanos - Duration.second)
    else if d.wholeSeconds < 0 then add (t.seconds + 1) (t.nanos - Duration.second)
    else ⟨t.seconds, (t.nanos + d.fraction).toNat⟩
  else add t.seconds t.nanos

/-- The instant a duration later, if the calendar reaches it. -/
def add? (t : Instant) (d : Duration) : Option Instant :=
  let sum := t.plus d
  if sum.inRange then some sum else none

/-- How much later `t` is than `s`. A leap second that only one of the two times of day has passed
counts once. -/
def since (t s : Instant) : Duration :=
  let leap : Int :=
    if t.timeOfDay > s.timeOfDay ∧ s.inLeapSecond then 1
    else if t.timeOfDay < s.timeOfDay ∧ t.inLeapSecond then -1
    else 0
  ⟨(t.seconds - s.seconds + leap) * Duration.second + (t.nanos - s.nanos)⟩

end Instant

end CertRotation
