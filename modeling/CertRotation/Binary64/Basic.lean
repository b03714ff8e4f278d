/-!
Binary floating point with 53 significant bits, in exact integer arithmetic. Every operation
rounds the exact result to the nearest representable number, and a tie to the even one.
-/

namespace CertRotation

/-- The parts of a finite number: the mantissa has 53 bits unless the exponent is the least. -/
abbrev IsNormal (mantissa : Nat) (exponent : Int) : Prop :=
  mantissa < Nat.pow 2 53 ∧ -1074 ≤ exponent ∧ exponent ≤ 971 ∧
    (Nat.pow 2 52 ≤ mantissa ∨ exponent = -1074)

/-- A number `± mantissa * 2 ^ exponent`, an infinity, or not a number. -/
inductive Binary64 where
  | nan
  | infinite (negative : Bool)
  | finite (negative : Bool) (mantissa : Nat) (exponent : Int)
      (normal : IsNormal mantissa exponent)
deriving DecidableEq

namespace Binary64

/-- The power of two that is multiplied in by a non-negative exponent. -/
def pow2 (exponent : Int) : Nat := Nat.pow 2 exponent.toNat

/-- The quotient rounded to an integer, a half to the even one. -/
def roundHalfEven (num den : Nat) : Nat :=
  let q := num / den
  let r := num % den
  if 2 * r > den ∨ (2 * r = den ∧ q % 2 = 1) then q + 1 else q

/-- The exponent that a positive quotient is rounded at: the one that leaves 53 bits before the
point, or the least one. -/
def exponentOf (num den : Nat) : Int :=
  let e : Int := (num.log2 : Int) - den.log2 - 52
  max (-1074) (if num * pow2 (-e) / (den * pow2 e) < Nat.pow 2 52 then e - 1 else e)

/-- The nearest number to `± num / den`, for `0 < den`; beyond the largest one it is infinite. -/
def ofRatio (negative : Bool) (num den : Nat) : Binary64 :=
  if num = 0 then finite negative 0 (-1074) (by decide)
  else
    let e := exponentOf num den
    let m := roundHalfEven (num * pow2 (-e)) (den * pow2 e)
    let (m, e) := if m = Nat.pow 2 53 then (Nat.pow 2 52, e + 1) else (m, e)
    if h : IsNormal m e then finite negative m e h else infinite negative

def zero : Binary64 := finite false 0 (-1074) (by decide)

def one : Binary64 := ofRatio false 1 1

/-- The nearest number to a natural number. -/
def ofNat (n : Nat) : Binary64 := ofRatio false n 1

/-- The nearest number to an integer. -/
def ofInt (n : Int) : Binary64 := ofRatio (n < 0) n.natAbs 1

/-- The nearest number to `± digits * 10 ^ exponent`. -/
def ofDecimal (negative : Bool) (digits : Nat) (exponent : Int) : Binary64 :=
  ofRatio negative (digits * Nat.pow 10 exponent.toNat) (Nat.pow 10 (-exponent).toNat)

def neg : Binary64 → Binary64
  | nan => nan
  | infinite negative => infinite !negative
  | finite negative m e h => finite (!negative) m e h

def numerator (mantissa : Nat) (exponent : Int) : Nat := mantissa * pow2 exponent

def denominator (exponent : Int) : Nat := pow2 (-exponent)

def mul : Binary64 → Binary64 → Binary64
  | finite s m e _, finite s' m' e' _ =>
    ofRatio (s != s') (numerator m e * numerator m' e') (denominator e * denominator e')
  | infinite s, infinite s' => infinite (s != s')
  | infinite s, finite s' m _ _ => if m = 0 then nan else infinite (s != s')
  | finite s m _ _, infinite s' => if m = 0 then nan else infinite (s != s')
  | nan, _ => nan
  | _, nan => nan

def div : Binary64 → Binary64 → Binary64
  | finite s m e _, finite s' m' e' _ =>
    if m' = 0 then if m = 0 then nan else infinite (s != s')
    else ofRatio (s != s') (numerator m e * denominator e') (denominator e * numerator m' e')
  | infinite _, infinite _ => nan
  | infinite s, finite s' _ _ _ => infinite (s != s')
  | finite s _ _ _, infinite s' => finite (s != s') 0 (-1074) (by decide)
  | nan, _ => nan
  | _, nan => nan

/-- The value of a finite number as an integer over the power of two `2 ^ 1074`. -/
def scaled (negative : Bool) (mantissa : Nat) (exponent : Int) : Int :=
  let magnitude : Int := (mantissa : Int) * pow2 (exponent + 1074)
  if negative then -magnitude else magnitude

/-- Whether one number is less than another. Nothing is less or greater than `nan`, and the two
zeros are equal. -/
def lt : Binary64 → Binary64 → Bool
  | finite s m e _, finite s' m' e' _ => scaled s m e < scaled s' m' e'
  | infinite s, infinite s' => s && !s'
  | infinite s, finite .. => s
  | finite .., infinite s => !s
  | nan, _ => false
  | _, nan => false

instance : LT Binary64 := ⟨fun x y => lt x y = true⟩

instance (x y : Binary64) : Decidable (x < y) := inferInstanceAs (Decidable (_ = true))

/-- Whether the number is neither infinite nor `nan`. -/
def isFinite : Binary64 → Bool
  | finite .. => true
  | _ => false

/-- Whether the number is a zero of either sign. -/
def isZero : Binary64 → Bool
  | finite _ m _ _ => m == 0
  | _ => false

/-- The magnitude rounded to an integer, a half away from zero. -/
def roundMagnitude (mantissa : Nat) (exponent : Int) : Nat :=
  (2 * numerator mantissa exponent + denominator exponent) / (2 * denominator exponent)

/-- The magnitude of the least integer of 64 bits with a sign. -/
def int64Limit : Nat := Nat.pow 2 63

/-- The nearest integer, a half away from zero, brought into the range of 64 bits with a sign;
`nan` counts as zero. -/
def toInt64 : Binary64 → Int
  | nan => 0
  | infinite negative => if negative then -int64Limit else int64Limit - 1
  | finite negative m e _ =>
    let n : Int := roundMagnitude m e
    if negative then max (-int64Limit) (-n) else min (int64Limit - 1) n

end Binary64

end CertRotation
