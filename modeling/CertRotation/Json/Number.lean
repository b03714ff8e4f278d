import CertRotation.Binary64.Text
import CertRotation.Json.Value

/-!
Numbers of JSON texts: as naturals, and as floating-point numbers in both directions.

Reading a floating-point number keeps the digits that fit 64 bits and scales them by one power of
ten at a time, so it may miss the nearest number in the last place; a number too large is refused.
Writing gives the fewest digits that read back under correct rounding.
-/

namespace CertRotation.JsonNumber

/-- The least number that does not fit 64 bits. -/
def wordLimit : Nat := Nat.pow 2 64

/-- The number as a natural of 64 bits: digits only, without a sign. -/
def toWord? (n : JsonNumber) : Option Nat :=
  let value := Text.decimalValue n.integer
  if n.negative ∨ n.fraction.isSome ∨ n.exponent.isSome ∨ value ≥ wordLimit then none
  else some value

/-- The digits as far as 64 bits hold them, and the number of digits left over. -/
def significand : (acc : Nat) → List Char → Nat × Nat
  | acc, [] => (acc, 0)
  | acc, c :: rest =>
    let next := acc * 10 + (c.toNat - 48)
    if next ≥ wordLimit then (acc, rest.length + 1) else significand next rest

/-- Appends fraction digits as far as 64 bits hold them and counts those taken. -/
def appendFraction : (acc taken : Nat) → List Char → Nat × Nat
  | acc, taken, [] => (acc, taken)
  | acc, taken, c :: rest =>
    let next := acc * 10 + (c.toNat - 48)
    if next ≥ wordLimit then (acc, taken) else appendFraction next (taken + 1) rest

/-- The largest power of ten that is applied in one step. -/
def scaleStep : Nat := 308

/-- The nearest number to a power of ten. -/
def powerOfTen (n : Nat) : Binary64 := Binary64.ofNat (Nat.pow 10 n)

/-- Multiplies by a power of ten in steps; a result that is too large is refused. -/
def scaleByTen? (x : Binary64) (exponent : Int) : Option Binary64 :=
  if exponent.natAbs ≤ scaleStep then
    if exponent ≥ 0 then
      let y := x.mul (powerOfTen exponent.natAbs)
      if y.isFinite then some y else none
    else some (x.div (powerOfTen exponent.natAbs))
  else if x.isZero then some x
  else if exponent ≥ 0 then none
  else scaleByTen? (x.div (powerOfTen scaleStep)) (exponent + scaleStep)
termination_by exponent.natAbs
decreasing_by
  simp only [scaleStep] at *
  omega

/-- The largest exponent that is counted; longer ones act as infinitely large or small. -/
def exponentLimit : Nat := Nat.pow 2 31

/-- The floating-point number, unless it is too large. -/
def toBinary64? (n : JsonNumber) : Option Binary64 := do
  let (digits, excess) := significand 0 n.integer
  let (digits, taken) :=
    match n.fraction with
    | none => (digits, 0)
    | some fraction => appendFraction digits 0 fraction
  let exponent : Int := (excess : Int) - taken
  let magnitude ←
    match n.exponent with
    | none => scaleByTen? (Binary64.ofNat digits) exponent
    | some (negative, text) =>
      let value := Text.decimalValue text
      if value ≥ exponentLimit then
        if digits ≠ 0 ∧ !negative then none else some Binary64.zero
      else scaleByTen? (Binary64.ofNat digits) (if negative then exponent - value else exponent + value)
  return if n.negative then magnitude.neg else magnitude

/-- The shortest form: a point and a digit after it in every number without an exponent, and an
exponent from `10 ^ 16` on and below `10 ^ -5`. -/
def ofFinite (negative : Bool) (mantissa : Nat) (exponent : Int)
    (normal : IsNormal mantissa exponent) : JsonNumber :=
  if mantissa = 0 then ⟨negative, ['0'], some ['0'], none⟩
  else
    let (value, unit) := Binary64.shortest mantissa exponent normal
    let digits := Nat.toDigits 10 value
    let point : Int := digits.length + unit
    if 0 ≤ unit ∧ point ≤ 16 then
      ⟨negative, digits ++ List.replicate unit.toNat '0', some ['0'], none⟩
    else if 0 < point ∧ point ≤ 16 then
      ⟨negative, digits.take point.toNat, some (digits.drop point.toNat), none⟩
    else if -5 < point ∧ point ≤ 0 then
      ⟨negative, ['0'], some (List.replicate (-point).toNat '0' ++ digits), none⟩
    else
      ⟨negative, digits.take 1, if digits.length = 1 then none else some (digits.drop 1),
        some (point < 1, Nat.toDigits 10 (point - 1).natAbs)⟩

end CertRotation.JsonNumber

namespace CertRotation.Json

/-- A floating-point number; what is not finite is written as null. -/
def ofBinary64 : Binary64 → Json
  | .finite negative m e h => number (JsonNumber.ofFinite negative m e h)
  | _ => null

end CertRotation.Json
