import CertRotation.Crypto.Digest.Algorithm
import CertRotation.Crypto.Modular

namespace CertRotation.Rsa

def maxExponent : Nat := Nat.pow 2 33 - 1

/-- What the numbers of a private key have to satisfy: `n = p q` is odd and larger than the odd
exponent `e`, and `d` undoes `e` modulo `p - 1` and modulo `q - 1`. -/
abbrev IsKey (n e d p q : Nat) : Prop :=
  e < n ∧ n % 2 = 1 ∧ e % 2 = 1 ∧ 2 ≤ e ∧ e ≤ maxExponent ∧ 1 < p ∧ 1 < q ∧ p * q = n ∧
    d * e % (p - 1) = 1 % (p - 1) ∧ d * e % (q - 1) = 1 % (q - 1)

/-- A private key: modulus, public and private exponent, and the two primes. -/
structure SecretKey where
  n : Nat
  e : Nat
  d : Nat
  p : Nat
  q : Nat
  isKey : IsKey n e d p q
deriving DecidableEq

namespace SecretKey

/-- The key of numbers that satisfy the conditions. -/
def ofNumbers? (n e d p q : Nat) : Option SecretKey :=
  if h : IsKey n e d p q then some ⟨n, e, d, p, q, h⟩ else none

/-- The exponent of the key modulo `p - 1`. -/
def dP (key : SecretKey) : Nat := key.d % (key.p - 1)

/-- The exponent of the key modulo `q - 1`. -/
def dQ (key : SecretKey) : Nat := key.d % (key.q - 1)

/-- The inverse of `q` modulo `p`; none when the two are not coprime. -/
def qInv? (key : SecretKey) : Option Nat := Modular.inverse? key.q key.p

end SecretKey

def bits (n : Nat) : Nat := if n = 0 then 0 else n.log2 + 1

/-- The block of `width` octets that is signed: the digest with its algorithm, filled up with ones
from the left. -/
def paddedDigest (algorithm : Digest.Algorithm) (width : Nat) (message : Octets) : Octets :=
  let info := algorithm.info message
  0 :: 1 :: List.replicate (width - info.length - 3) 0xff ++ 0 :: info

/-- The signature of a message, as long as the modulus. -/
def sign (algorithm : Digest.Algorithm) (key : SecretKey) (message : Octets) : Octets :=
  let width := Octets.width key.n
  let block := Octets.value (paddedDigest algorithm width message)
  Octets.ofNat width (Modular.power block key.d key.n)

/-- Whether a signature is as long as the modulus, and raised to the exponent gives a block that is
accepted. -/
def opens (n e : Nat) (signature : Octets) (accepts : Nat → Bool) : Bool :=
  let s := Octets.value signature
  signature.length == Octets.width n && s < n && accepts (Modular.power s e n)

/-- Whether a signature of a message holds under a modulus and an exponent. -/
def verify (algorithm : Digest.Algorithm) (n e : Nat) (message signature : Octets) : Bool :=
  let width := Octets.width n
  opens n e signature fun block =>
    Octets.ofNat width block == paddedDigest algorithm width message

/-- Octets made from a seed, by counting. -/
def mask (algorithm : Digest.Algorithm) (seed : Octets) (count : Nat) : Octets :=
  ((List.range count).flatMap fun i => algorithm.digest (seed ++ Octets.ofNat 4 i)).take count

/-- Whether a block of `size` bits hides a salt and holds the digest of the salted message, for
salts as long as the digest. -/
def isPssBlock (algorithm : Digest.Algorithm) (size : Nat) (message : Octets) (block : Nat) :
    Bool :=
  let width := (size + 7) / 8
  let digest := algorithm.digest message
  let count := width - digest.length - 1
  let octets := Octets.ofNat width block
  let hash := (octets.drop count).take digest.length
  let unmasked := List.zipWith (· ^^^ ·) (octets.take count) (mask algorithm hash count)
  -- Of the first octet, only the bits that the block has are looked at.
  let shown := Octets.value unmasked % Nat.pow 2 (size - 8 * (digest.length + 1))
  2 * digest.length + 2 ≤ width && block < Nat.pow 2 size && block % 256 == 0xbc &&
    shown / Nat.pow 256 digest.length == 1 &&
    hash == algorithm.digest
      (List.replicate 8 0 ++ digest ++ Octets.ofNat digest.length shown)

/-- Whether a PSS signature of a message holds under a modulus and an exponent. -/
def verifyPss (algorithm : Digest.Algorithm) (n e : Nat) (message signature : Octets) : Bool :=
  opens n e signature (isPssBlock algorithm (bits n - 1) message)

end CertRotation.Rsa
