import CertRotation.Asn1.Strict
import CertRotation.Crypto.Modular

namespace CertRotation

/-- A point other than the one at infinity. -/
structure Curve.Point where
  x : Nat
  y : Nat
deriving DecidableEq, Repr

/-- A curve `y² = x³ - 3 x + b` over a prime field, with a generator of its points. Coordinates and
multiples are written in `scalarOctets` octets. -/
structure Curve where
  fieldPrime : Nat
  order : Nat
  b : Nat
  generator : Curve.Point
  scalarOctets : Nat
  fieldPrime_pos : 0 < fieldPrime := by decide
  fieldPrime_lt : fieldPrime < Nat.pow 256 scalarOctets := by decide
  order_pos : 0 < order := by decide
  order_lt : order < Nat.pow 256 scalarOctets := by decide
deriving Repr

namespace Curve

def p256 : Curve where
  fieldPrime := 0xffffffff00000001000000000000000000000000ffffffffffffffffffffffff
  order := 0xffffffff00000000ffffffffffffffffbce6faada7179e84f3b9cac2fc632551
  b := 0x5ac635d8aa3a93e7b3ebbd55769886bc651d06b0cc53b0f63bce3c3e27d2604b
  generator :=
    ⟨0x6b17d1f2e12c4247f8bce6e563a440f277037d812deb33a0f4a13945d898c296,
      0x4fe342e2fe1a7f9b8ee7eb4a7c0f9e162bce33576b315ececbb6406837bf51f5⟩
  scalarOctets := 32

def p384 : Curve where
  fieldPrime :=
    0xffffffffffffffffffffffffffffffffffffffffffffffff * Nat.pow 2 192 +
      0xfffffffffffffffeffffffff0000000000000000ffffffff
  order :=
    0xffffffffffffffffffffffffffffffffffffffffffffffff * Nat.pow 2 192 +
      0xc7634d81f4372ddf581a0db248b0a77aecec196accc52973
  b :=
    0xb3312fa7e23ee7e4988e056be3f82d19181d9c6efe814112 * Nat.pow 2 192 +
      0x0314088f5013875ac656398d8a2ed19d2a85c8edd3ec2aef
  generator :=
    ⟨0xaa87ca22be8b05378eb1c71ef320ad746e1d3b628ba79b98 * Nat.pow 2 192 +
        0x59f741e082542a385502f25dbf55296c3a545e3872760ab7,
      0x3617de4a96262c6f5d9e98bf9292dc29f8f41dbd289a147c * Nat.pow 2 192 +
        0xe9da3113b5f0b8c00a60b1ce1d7e819d7a431d7c90ea0e5f⟩
  scalarOctets := 48

/-- The point `(x / z², y / z³)`; at infinity when `z` is zero. -/
structure Jacobian where
  x : Nat
  y : Nat
  z : Nat

def Jacobian.infinity : Jacobian := ⟨1, 1, 0⟩

def Jacobian.ofPoint (point : Point) : Jacobian := ⟨point.x, point.y, 1⟩

variable (curve : Curve)

/-- Whether coordinates are in the field and satisfy the curve equation. -/
def isOnCurve (point : Point) : Bool :=
  point.x < curve.fieldPrime && point.y < curve.fieldPrime &&
    point.y * point.y % curve.fieldPrime ==
      (point.x * point.x * point.x + (curve.fieldPrime - 3) * point.x + curve.b) %
        curve.fieldPrime

def mul (a b : Nat) : Nat := a * b % curve.fieldPrime

def sub (a b : Nat) : Nat := Modular.sub a b curve.fieldPrime

def double (p : Jacobian) : Jacobian :=
  let delta := curve.mul p.z p.z
  let gamma := curve.mul p.y p.y
  let beta := curve.mul p.x gamma
  let alpha := curve.mul 3 (curve.mul (curve.sub p.x delta) (p.x + delta))
  let x := curve.sub (curve.mul alpha alpha) (curve.mul 8 beta)
  ⟨x, curve.sub (curve.mul alpha (curve.sub (curve.mul 4 beta) x))
      (curve.mul 8 (curve.mul gamma gamma)),
    curve.mul 2 (curve.mul p.y p.z)⟩

def add (p q : Jacobian) : Jacobian :=
  if p.z = 0 then q
  else if q.z = 0 then p
  else
    let zz := curve.mul p.z p.z
    let zz' := curve.mul q.z q.z
    let u := curve.mul p.x zz'
    let u' := curve.mul q.x zz
    let s := curve.mul p.y (curve.mul q.z zz')
    let s' := curve.mul q.y (curve.mul p.z zz)
    if u = u' then if s = s' then curve.double p else .infinity
    else
      let h := curve.sub u' u
      let r := curve.sub s' s
      let hh := curve.mul h h
      let hhh := curve.mul h hh
      let v := curve.mul u hh
      let x := curve.sub (curve.sub (curve.mul r r) hhh) (curve.mul 2 v)
      ⟨x, curve.sub (curve.mul r (curve.sub v x)) (curve.mul s hhh),
        curve.mul h (curve.mul p.z q.z)⟩

/-- A multiple of a point, by doubling. -/
def multiple (n : Nat) (p : Jacobian) : Jacobian :=
  if _h : n = 0 then .infinity
  else
    let rest := curve.double (multiple (n / 2) p)
    if n % 2 = 1 then curve.add rest p else rest
termination_by n
decreasing_by omega

/-- The plain coordinates; none at infinity. -/
def toPoint? (p : Jacobian) : Option Point :=
  if p.z = 0 then none
  else do
    let inverse ← Modular.inverse? p.z curve.fieldPrime
    let square := curve.mul inverse inverse
    return ⟨curve.mul p.x square, curve.mul p.y (curve.mul inverse square)⟩

/-- The uncompressed form of a point; a single zero octet at infinity. -/
def encodePoint : Option Point → Octets
  | none => [0]
  | some point =>
    4 :: (Octets.ofNat curve.scalarOctets point.x ++ Octets.ofNat curve.scalarOctets point.y)

def encodeCompressed : Option Point → Octets
  | none => [0]
  | some point => (if point.y % 2 = 0 then 2 else 3) :: Octets.ofNat curve.scalarOctets point.x

/-- Reads the uncompressed form of a point on the curve. -/
def decodePoint? : Octets → Option Point
  | 4 :: coordinates =>
    let point : Point :=
      ⟨Octets.value (coordinates.take curve.scalarOctets),
        Octets.value (coordinates.drop curve.scalarOctets)⟩
    if coordinates.length = 2 * curve.scalarOctets ∧ curve.isOnCurve point then some point
    else none
  | _ => none

structure Signature where
  r : Nat
  s : Nat
deriving DecidableEq, Repr

def Signature.encode (signature : Signature) : Octets :=
  Asn1.sequence [Asn1.natural signature.r, Asn1.natural signature.s]

/-- Reads two numbers in range, in strict form. -/
def decodeSignature? (der : Octets) : Option Signature := do
  let (signature, rest) ← (Asn1.Strict.sequence do
    let r ← Asn1.Strict.natural
    let s ← Asn1.Strict.natural
    return Signature.mk r s) der
  if rest = [] ∧ 0 < signature.r ∧ signature.r < curve.order ∧
      0 < signature.s ∧ signature.s < curve.order then
    some signature
  else none

/-- The number that a digest stands for: its first octets, at most as many as a scalar has. -/
def digestNumber (digest : Octets) : Nat := Octets.value (digest.take curve.scalarOctets)

/-- Whether a signature holds for a digest under a public point. -/
def verify (point : Point) (digest : Octets) (signature : Signature) : Bool :=
  match Modular.inverse? signature.s curve.order with
  | none => false
  | some inverse =>
    let u := curve.digestNumber digest * inverse % curve.order
    let v := signature.r * inverse % curve.order
    match curve.toPoint? (curve.add (curve.multiple u (.ofPoint curve.generator))
        (curve.multiple v (.ofPoint point))) with
    | none => false
    | some sum => sum.x % curve.order == signature.r

end Curve

end CertRotation
