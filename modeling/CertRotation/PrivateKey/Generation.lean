import CertRotation.Crypto.Primes
import CertRotation.PrivateKey.Basic

namespace CertRotation

namespace Rsa

/-- The length of the modulus of new keys, in bits. -/
def newKeyBits : Nat := 2048

def newExponent : Nat := 65537

/-- The number of candidates for a prime that are looked at. -/
def primeBudget : Nat := 20000

/-- A prime with half the bits of a modulus, the first after a random number whose two highest bits
are set. -/
def newPrime? (random : Octets) : Option Nat :=
  let half := newKeyBits / 2
  let start := Nat.pow 2 (half - 1) + Nat.pow 2 (half - 2) +
    Octets.value random % Nat.pow 2 (half - 2)
  Primes.next? (fun p => p % newExponent != 1) primeBudget (start / 2 * 2 + 1)

def SecretKey.ofPrimes? (p q : Nat) : Option SecretKey := do
  let d ← Modular.inverse? newExponent ((p - 1) * (q - 1))
  SecretKey.ofNumbers? (p * q) newExponent d p q

end Rsa

namespace PrivateKey

/-- The number of random octets that a new RSA key takes: half of them for each prime. -/
def rsaSeedOctets : Nat := 256

/-- A new RSA key for signing certificates. -/
def newRsa (random : Octets) : Except Failure PrivateKey :=
  let key := do
    let p ← Rsa.newPrime? (random.take (rsaSeedOctets / 2))
    let q ← Rsa.newPrime? (random.drop (rsaSeedOctets / 2))
    Rsa.SecretKey.ofPrimes? p q
  match key with
  | some key => .ok (rsa key)
  | none => .error .keyGeneration

/-- The number of random octets that a new P-256 key takes. -/
def p256SeedOctets : Nat := 48

def newP256 (random : Octets) : PrivateKey :=
  let scalar := Octets.value random % (Curve.p256.order - 1) + 1
  have bound : Octets.value random % (Curve.p256.order - 1) < Curve.p256.order - 1 :=
    Nat.mod_lt _ (by decide)
  ecdsaP256 ⟨scalar, Nat.succ_pos _, by omega⟩

end PrivateKey

end CertRotation
