import CertRotation.Crypto.Digest.Sha512
import CertRotation.Crypto.Modular

/-!
The checking of Ed25519 signatures. Points of the curve `-x² + y² = 1 + d x² y²` are added in
extended coordinates.
-/

namespace CertRotation.Ed25519

/-- The field of coordinates has this many elements, which is `2 ^ 255 - 19`. -/
def fieldPrime : Nat := 0x7fffffffffffffffffffffffffffffffffffffffffffffffffffffffffffffed

def order : Nat := 0x1000000000000000000000000000000014def9dea2f79cd65812631a5cf5d3ed

/-- The number `d` of the curve equation. -/
def curveD : Nat := 0x52036cee2b6ffe738cc740797779e89800700a4d4141d8ab75eb4dca135978a3

def rootOfMinusOne : Nat := 0x2b8324804fc1df0b2b4d00993dfbd7a72f431806ad2fe478c4ee1b274a0ea0b0

/-- The point `(x / z, y / z)`, where `t z = x y`. -/
structure Point where
  x : Nat
  y : Nat
  z : Nat
  t : Nat

def mul (a b : Nat) : Nat := a * b % fieldPrime

def sub (a b : Nat) : Nat := Modular.sub a b fieldPrime

namespace Point

def zero : Point := ⟨0, 1, 1, 0⟩

def ofCoordinates (x y : Nat) : Point := ⟨x, y, 1, mul x y⟩

def generator : Point :=
  ofCoordinates 0x216936d3cd6e53fec0a4e231fdd6dc5c692cc7609525a7b2c9562d608f25d51a
    0x6666666666666666666666666666666666666666666666666666666666666658

/-- The sum of any two points, which may be the same. -/
def add (p q : Point) : Point :=
  let a := mul (sub p.y p.x) (sub q.y q.x)
  let b := mul (p.y + p.x) (q.y + q.x)
  let c := mul (mul p.t q.t) (2 * curveD)
  let d := mul p.z (2 * q.z)
  let e := sub b a
  let f := sub d c
  let g := d + c
  let h := b + a
  ⟨mul e f, mul g h, mul f g, mul e h⟩

def neg (p : Point) : Point := ⟨sub 0 p.x, p.y, p.z, sub 0 p.t⟩

/-- A multiple of a point, by doubling. -/
def multiple (n : Nat) (p : Point) : Point :=
  if _h : n = 0 then zero
  else
    let half := multiple (n / 2) p
    let rest := half.add half
    if n % 2 = 1 then rest.add p else rest
termination_by n
decreasing_by omega

end Point

/-- The octets of a coordinate or a scalar. -/
def scalarOctets : Nat := 32

/-- The value of octets whose first is the least significant. -/
def littleEndian (octets : Octets) : Nat := Octets.value octets.reverse

/-- The octets of a point: the second coordinate, and in the highest bit whether the first is
odd. -/
def Point.encode (p : Point) : Octets :=
  let inverse := Modular.power p.z (fieldPrime - 2) fieldPrime
  let sign := mul p.x inverse % 2
  (Octets.ofNat scalarOctets (mul p.y inverse + sign * Nat.pow 2 255)).reverse

/-- The first coordinate of a point, but for the sign, from the second. -/
def root? (y : Nat) : Option Nat :=
  let u := sub (mul y y) 1
  let v := mul (mul curveD y) y + 1
  let x := mul u (Modular.power (mul u v) ((fieldPrime - 5) / 8) fieldPrime)
  let square := mul v (mul x x)
  if square = u then some x
  else if square = sub 0 u then some (mul x rootOfMinusOne)
  else none

/-- Reads a point. Second coordinates beyond the field are taken as they are in it, and the sign of
zero does not count. -/
def decodePoint? (octets : Octets) : Option Point := do
  if octets.length ≠ scalarOctets then none
  let n := littleEndian octets
  let y := n % Nat.pow 2 255 % fieldPrime
  let x ← root? y
  return .ofCoordinates (if x % 2 = n / Nat.pow 2 255 then x else sub 0 x) y

/-- Whether a signature of a message holds under a public key. -/
def verify (key message signature : Octets) : Bool :=
  let commitment := signature.take scalarOctets
  let s := littleEndian (signature.drop scalarOctets)
  match decodePoint? key with
  | none => false
  | some point =>
    let h := littleEndian (Digest.sha512 (commitment ++ key ++ message)) % order
    signature.length == 2 * scalarOctets && s < order &&
      ((Point.multiple s .generator).add (Point.multiple h point.neg)).encode == commitment

end CertRotation.Ed25519
