import CertRotation.Asn1.Tolerant
import CertRotation.Text.Basic
import CertRotation.Time.Instant

/-!
The two forms of time in certificates. Reading keeps whole seconds; seconds may be left out, and a
time with a zone is moved to UTC. Writing uses the short form for the years 1950 to 2049.
-/

namespace CertRotation.X509

open Asn1

/-- The date and time of day a time text names, before its zone is applied. -/
structure ClockReading where
  date : Time.Date
  hour : Nat
  minute : Nat
  second : Nat
deriving DecidableEq, Repr

namespace ClockReading

/-- The largest offset of a zone, in hours. -/
def maxZoneHours : Nat := 25

/-- The instant of the reading in a zone that is `offset` seconds ahead of UTC. -/
def instant? (reading : ClockReading) (offset : Int) : Option Instant :=
  if reading.date.isValid ∧ reading.hour ≤ 23 ∧ reading.minute ≤ 59 ∧ reading.second ≤ 59 then
    some ⟨reading.date.toDays * Instant.secondsPerDay + reading.hour * 3600 + reading.minute * 60 +
      reading.second - offset, 0⟩
  else none

end ClockReading

def twoDigits? (high low : Char) : Option Nat :=
  if Text.isDigit high && Text.isDigit low then some (Text.decimalValue [high, low]) else none

/-- The offset of a zone of hours and minutes. An hour of zero has no sign. -/
def zoneOffset? (negative : Bool) (hours minutes : Nat) : Option Int :=
  if hours > ClockReading.maxZoneHours ∨ minutes > 59 then none
  else
    let seconds : Int := hours * 3600 + minutes * 60
    some (if negative ∧ hours ≠ 0 then -seconds else seconds)

/-- The offset that a zone text stands for: `Z`, or a sign and four digits. -/
def zone? : List Char → Option Int
  | ['Z'] => some 0
  | [sign, h, h', m, m'] => do
    let hours ← twoDigits? h h'
    let minutes ← twoDigits? m m'
    if sign = '+' then zoneOffset? false hours minutes
    else if sign = '-' then zoneOffset? true hours minutes
    else none
  | _ => none

/-- Reads month, day, hour and minute, and the seconds if two more characters follow. -/
def clockReading? (year : Int) : List Char → Option (ClockReading × List Char)
  | mo :: mo' :: d :: d' :: h :: h' :: mi :: mi' :: rest => do
    let month ← twoDigits? mo mo'
    let day ← twoDigits? d d'
    let hour ← twoDigits? h h'
    let minute ← twoDigits? mi mi'
    match rest with
    | s :: s' :: rest =>
      let second ← twoDigits? s s'
      return (⟨⟨year, month, day⟩, hour, minute, second⟩, rest)
    | rest => return (⟨⟨year, month, day⟩, hour, minute, 0⟩, rest)
  | _ => none

/-- The year of two digits: 50 and later are in the twentieth century. -/
def fullYear (year : Nat) : Int :=
  if year ≥ 50 then 1900 + year else 2000 + year

/-- The instant of a time with a two-digit year, which has a zone. -/
def shortTime? : List Char → Option Instant
  | y :: y' :: rest => do
    let year ← twoDigits? y y'
    let (reading, rest) ← clockReading? (fullYear year) rest
    let offset ← zone? rest
    reading.instant? offset
  | _ => none

/-- Drops a point and at most three digits. -/
def dropFraction? : List Char → Option (List Char)
  | '.' :: rest =>
    let digits := rest.takeWhile Text.isDigit
    if digits.length > 3 then none else some (rest.drop digits.length)
  | text => some text

/-- The instant of a time with a four-digit year, which is in UTC. A fraction is cut off. -/
def longTime? : List Char → Option Instant
  | c :: c' :: y :: y' :: rest => do
    let century ← twoDigits? c c'
    let year ← twoDigits? y y'
    let (reading, rest) ← clockReading? (century * 100 + year : Nat) rest
    let rest ← dropFraction? rest
    if rest = ['Z'] then reading.instant? 0 else none
  | _ => none

/-- The visible ASCII characters of a text, if it holds no others. -/
def visible? (contents : Octets) : Option (List Char) :=
  if contents.all fun byte => 0x20 ≤ byte && byte ≤ 0x7f then
    some (contents.map fun byte => Char.ofNat byte.toNat)
  else none

def time : Reader Instant := do
  let e ← Tolerant.element
  let text ← visible? e.contents
  if e.number = 23 then shortTime? text
  else if e.number = 24 then longTime? text
  else failure

/-- A year in four characters. One before year 0 keeps its sign, so that no reader accepts it. -/
def yearDigits (year : Int) : String :=
  if year < 0 then "-" ++ Text.padded 3 year.natAbs else Text.padded 4 year.toNat

/-- Writes a whole second in UTC: the short form for the years 1950 to 2049. -/
def encodeTime (t : Instant) : Octets :=
  let date := t.date
  let second := t.timeOfDay.toNat
  let rest := Text.padded 2 date.month ++ Text.padded 2 date.day ++ Text.padded 2 (second / 3600) ++
    Text.padded 2 (second / 60 % 60) ++ Text.padded 2 (second % 60) ++ "Z"
  let ascii (text : String) : Octets := text.toList.map fun c => UInt8.ofNat c.toNat
  if 1950 ≤ date.year ∧ date.year < 2050 then
    encode 23 (ascii (Text.padded 2 (date.year % 100).toNat ++ rest))
  else encode 24 (ascii (yearDigits date.year ++ rest))

end CertRotation.X509

namespace CertRotation.Issuance

/-- The last year that a certificate can carry. -/
def lastYear : Int := 9999

/-- The end of a validity that starts now, if a certificate can carry it. -/
def endOfValidity? (now : Instant) (duration : Duration) : Option Instant :=
  (now.add? duration).filter fun t => t.date.year ≤ lastYear

/-- Whether the year of an instant has four digits, with or without a sign. -/
def isWritable (t : Instant) : Bool := -lastYear ≤ t.date.year && t.date.year ≤ lastYear

end CertRotation.Issuance
