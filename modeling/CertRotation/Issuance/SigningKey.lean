import CertRotation.PrivateKey.Document
import CertRotation.X509.Template

namespace CertRotation

open Asn1

namespace Rsa

/-- The least and the greatest length of a modulus that signs certificates, in bits. -/
def signingBits : Nat × Nat := (2048, 4096)

/-- The least public exponent of a key that signs certificates. -/
def minSigningExponent : Nat := 65537

/-- The lengths of the primes of a signing key are multiples of this number of bits. -/
def primeBitsUnit : Nat := 512

/-- Whether a prime has half the bits of a modulus. -/
def isHalf (n p : Nat) : Bool :=
  Rsa.bits p == (Rsa.bits n + 1) / 2 && Rsa.bits p % primeBitsUnit == 0

/-- Whether a key may sign certificates: its length is in bounds, its primes have half of it each,
and its private exponent is longer than a prime but less than the modulus. -/
def SecretKey.isSigningKey (key : SecretKey) : Bool :=
  signingBits.1 ≤ Octets.width key.n * 8 && Rsa.bits key.n ≤ signingBits.2 &&
    minSigningExponent ≤ key.e && isHalf key.n key.p && isHalf key.n key.q &&
    (Rsa.bits key.n + 1) / 2 < Rsa.bits key.d && key.d < key.n && key.d % 2 == 1

end Rsa

namespace PrivateKey

/-- Checks that a key may sign certificates. -/
def checkSigningKey (key : PrivateKey) : Except Failure Unit := do
  if key.pkcs8?.isNone then throw (.signing .keyForm)
  match key with
  | ecdsaP256 _ => return
  | rsa key => if !key.isSigningKey then throw (.signing .unusableKey)

/-- The algorithm of the signatures of a key. -/
def signatureAlgorithm : PrivateKey → Octets
  | rsa _ => sequence [Oid.sha256WithRsa.encode, null]
  | ecdsaP256 _ => sequence [Oid.ecdsaWithSha256.encode]

end PrivateKey

/-- The certificate that says what a template says, signed with a key. -/
def X509.Template.certificate (template : X509.Template) (key : PrivateKey) : Octets :=
  let signedPart := template.signedPart key.signatureAlgorithm
  sequence [signedPart, key.signatureAlgorithm, bitString (key.sign signedPart)]

end CertRotation
