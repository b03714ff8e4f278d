import CertRotation.Binary64.Basic
import CertRotation.Text.Basic

/-!
Decimal text of floating-point numbers: the fewest digits that read back, of those the nearest,
written without an exponent.
-/

namespace CertRotation.Binary64

/-- The power of ten of the first significant digit of a positive quotient. -/
def leadingPower (num den : Nat) : Int :=
  if num ≥ den then ((Nat.toDigits 10 (num / den)).length : Int) - 1
  else
    -(((List.range 400).find? fun j => num * Nat.pow 10 j ≥ den).getD 0 : Int)

/-- The integers on both sides of `num / den` counted in units of `10 ^ unit`, the nearer first. -/
def neighbours (num den : Nat) (unit : Int) : List Nat :=
  let n := num * Nat.pow 10 (-unit).toNat
  let d := den * Nat.pow 10 unit.toNat
  let below := n / d
  if n % d = 0 then [below]
  else if 2 * (n % d) ≤ d then [below, below + 1] else [below + 1, below]

/-- The decimal of at most `17 - skipped` further digits that reads back as the magnitude, tried
from few digits to many. -/
def shortestFrom (num den : Nat) (leading : Int) (target : Binary64) : (tries digits : Nat) →
    Nat × Int
  | 0, _ => (0, 0)
  | tries + 1, digits =>
    let unit := leading - (digits : Int) + 1
    match (neighbours num den unit).find? fun n => ofDecimal false n unit = target with
    | some n => (n, unit)
    | none => shortestFrom num den leading target tries (digits + 1)

/-- Drops zeros at the end of a decimal. -/
def dropZeros : (budget digits : Nat) → (unit : Int) → Nat × Int
  | 0, digits, unit => (digits, unit)
  | budget + 1, digits, unit =>
    if digits ≠ 0 ∧ digits % 10 = 0 then dropZeros budget (digits / 10) (unit + 1)
    else (digits, unit)

/-- The fewest digits that read back as a positive magnitude, and their power of ten. -/
def shortest (mantissa : Nat) (exponent : Int) (normal : IsNormal mantissa exponent) : Nat × Int :=
  let num := numerator mantissa exponent
  let den := denominator exponent
  let (digits, unit) := shortestFrom num den (leadingPower num den)
    (finite false mantissa exponent normal) 17 1
  dropZeros 20 digits unit

/-- `digits * 10 ^ unit` without an exponent; no point in a whole number. -/
def positional (digits : Nat) (unit : Int) : String :=
  let text := Nat.toDigits 10 digits
  let places := (-unit).toNat
  if unit ≥ 0 then String.ofList (text ++ List.replicate unit.toNat '0')
  else if places < text.length then
    String.ofList (text.take (text.length - places) ++ '.' :: text.drop (text.length - places))
  else "0." ++ String.ofList (List.replicate (places - text.length) '0' ++ text)

/-- The text: positional, `NaN`, `inf`. -/
def text : Binary64 → String
  | nan => "NaN"
  | infinite negative => if negative then "-inf" else "inf"
  | finite negative m e h =>
    let magnitude :=
      if m = 0 then "0" else positional (shortest m e h).1 (shortest m e h).2
    if negative then "-" ++ magnitude else magnitude

end CertRotation.Binary64
