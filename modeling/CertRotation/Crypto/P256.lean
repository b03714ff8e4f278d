import CertRotation.Crypto.Curve
import CertRotation.Crypto.Digest.Sha256

/-!
Secret keys on P-256. A signature takes its secret number from the key and the message alone, so
that the same input always gives the same signature.
-/

namespace CertRotation.P256

open Curve (p256)

structure SecretKey where
  scalar : Nat
  scalar_pos : 0 < scalar := by decide
  scalar_lt : scalar < p256.order := by decide
deriving DecidableEq, Repr

namespace SecretKey

/-- The key of a scalar in range. -/
def ofScalar? (scalar : Nat) : Option SecretKey :=
  if h : 0 < scalar ∧ scalar < p256.order then some ⟨scalar, h.1, h.2⟩ else none

def octets (key : SecretKey) : Octets := Octets.ofNat p256.scalarOctets key.scalar

def publicPoint (key : SecretKey) : Option Curve.Point :=
  p256.toPoint? (p256.multiple key.scalar (.ofPoint p256.generator))

/-- The uncompressed form of the public point. -/
def publicOctets (key : SecretKey) : Octets := p256.encodePoint key.publicPoint

end SecretKey

/-- The signature that a secret number gives, if it is a valid one. -/
def signWith? (key : SecretKey) (z k : Nat) : Option Curve.Signature := do
  let point ← p256.toPoint? (p256.multiple k (.ofPoint p256.generator))
  let inverse ← Modular.inverse? k p256.order
  let r := point.x % p256.order
  let s := inverse * (z + r * key.scalar) % p256.order
  if r = 0 ∨ s = 0 then none else some ⟨r, s⟩

/-- Goes through the secret numbers that a generator state yields until one gives a signature; at
most `budget` of them. -/
def signFrom (key : SecretKey) (z : Nat) :
    (budget : Nat) → (secret state : Octets) → Curve.Signature
  | 0, _, _ => ⟨0, 0⟩
  | budget + 1, secret, state =>
    let state := Digest.hmacSha256 secret state
    let k := Octets.value state
    match if 0 < k ∧ k < p256.order then signWith? key z k else none with
    | some signature => signature
    | none =>
      let secret := Digest.hmacSha256 secret (state ++ [0])
      signFrom key z budget secret (Digest.hmacSha256 secret state)

/-- The number of secret numbers that are tried; far fewer are ever needed. -/
def signBudget : Nat := 128

/-- Signs the SHA-256 digest of a message. -/
def sign (key : SecretKey) (message : Octets) : Curve.Signature :=
  let z := p256.digestNumber (Digest.sha256 message)
  let seed := key.octets ++ Octets.ofNat p256.scalarOctets (z % p256.order)
  let state := List.replicate 32 1
  let secret := Digest.hmacSha256 (List.replicate 32 0) (state ++ 0 :: seed)
  let state := Digest.hmacSha256 secret state
  let secret := Digest.hmacSha256 secret (state ++ 1 :: seed)
  let state := Digest.hmacSha256 secret state
  signFrom key z signBudget secret state

end CertRotation.P256
