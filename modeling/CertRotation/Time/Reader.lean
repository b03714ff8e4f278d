import CertRotation.Text.Basic
import CertRotation.Time.Instant

/-!
Reading instants. A year has up to four digits, or any number of them after a sign; blanks may stand
before every number and separator; `T`, `t` or one blank parts the date from the time of day; second
60 is a leap second. The offset is `Z`, `z`, `UTC` in any case, or a sign and two digits of hours,
which two digits of minutes may follow with or without colons.
-/

namespace CertRotation.Time

/-- Reads something off the front of a text. -/
abbrev TextReader := StateT (List Char) Option

def skipBlanks : TextReader Unit := modify (·.dropWhile Text.isBlank)

def literal (c : Char) : TextReader Unit
  | [] => none
  | c' :: rest => if c' = c then some ((), rest) else none

/-- The digits at the front that `field` holds: one or more. -/
def digitsOf (field : List Char) : TextReader (List Char) := fun text =>
  match field.takeWhile Text.isDigit with
  | [] => none
  | digits => some (digits, text.drop digits.length)

/-- A number of at most `width` digits. -/
def number (width : Nat) : TextReader Nat := do
  skipBlanks
  return Text.decimalValue (← digitsOf ((← get).take width))

def year : TextReader Int := do
  skipBlanks
  match ← get with
  | '-' :: rest =>
    set rest
    return -(Text.decimalValue (← digitsOf rest) : Int)
  | '+' :: rest =>
    set rest
    return Text.decimalValue (← digitsOf rest)
  | _ => return ← number 4

def separator (c : Char) : TextReader Unit := do
  skipBlanks
  literal c

def date : TextReader Date := do
  let year ← year
  separator '-'
  let month ← number 2
  separator '-'
  let date : Date := ⟨year, month, ← number 2⟩
  if date.isValid then return date else failure

/-- A fraction of a second in nanoseconds, if there is one. Digits after the ninth are passed
over. -/
def fraction : TextReader Nat := do
  match ← get with
  | '.' :: rest =>
    set rest
    let digits ← digitsOf rest
    return Text.decimalValue (digits.take 9) * Nat.pow 10 (9 - digits.length)
  | _ => return 0

/-- A time of day: whole seconds since midnight and the fraction, which is a billion nanoseconds or
more in a leap second. -/
def timeOfDay : TextReader (Nat × Nat) := do
  let hour ← number 2
  separator ':'
  let minute ← number 2
  separator ':'
  let second ← number 2
  let nanos ← fraction
  if hour < 24 ∧ minute < 60 ∧ second ≤ 60 then
    return (hour * 3600 + minute * 60 + min second 59,
      if second = 60 then nanos + 1000000000 else nanos)
  else failure

def twoDigits : TextReader Nat
  | a :: b :: rest =>
    if Text.isDigit a ∧ Text.isDigit b then some (Text.decimalValue [a, b], rest) else none
  | _ => none

/-- The hours and minutes of an offset in seconds. -/
def offsetSeconds : TextReader Nat := do
  let hours ← twoDigits
  modify (·.dropWhile fun c => c == ':' || Text.isBlank c)
  if (← get).isEmpty then return hours * 3600
  let minutes ← twoDigits
  if minutes < 60 then return hours * 3600 + minutes * 60 else failure

/-- An offset from UTC in seconds. -/
def offset : TextReader Int := do
  let text ← get
  if (text.take 3).map Char.toLower = ['u', 't', 'c'] then
    set (text.drop 3)
    return 0
  match text with
  | c :: rest =>
    set rest
    if c = 'Z' ∨ c = 'z' then return 0
    else if c = '+' then return ← offsetSeconds
    else if c = '-' ∨ c = '−' then return -(← offsetSeconds : Int)
    else failure
  | [] => failure

/-- What parts a date from a time of day. -/
def dateEnd : TextReader Unit
  | c :: rest => if ['T', 't', ' '].contains c then some ((), rest) else none
  | [] => none

/-- An instant. Both the local day and the day in UTC lie in the calendar's range. -/
def instant : TextReader Instant := do
  let date ← date
  dateEnd
  let (second, nanos) ← timeOfDay
  skipBlanks
  let offset ← offset
  skipBlanks
  let wall : Instant := ⟨date.toDays * Instant.secondsPerDay + second, nanos⟩
  let t : Instant := ⟨wall.seconds - offset, nanos⟩
  if wall.inRange ∧ t.inRange ∧ -86400 < offset ∧ offset < 86400 then return t else failure

end CertRotation.Time

def CertRotation.Instant.parse? (text : String) : Option CertRotation.Instant :=
  match CertRotation.Time.instant text.toList with
  | some (t, []) => some t
  | _ => none
