import CertRotation.Certificate.Basic
import CertRotation.PrivateKey.Basic
import CertRotation.X509.Certificate

namespace CertRotation

open Asn1

/-- A public key as certificates state it. RSA numbers and the elliptic curve point are kept as they
are written; keys of other kinds are told apart by nothing. -/
inductive PublicKey where
  | rsa (modulus exponent : Octets)
  | ellipticCurve (point : Octets)
  | other
deriving DecidableEq, Repr

namespace PublicKey

/-- DSA keys, which hold one number. -/
def dsa : Oid := [1, 2, 840, 10040, 4, 1]

/-- The GOST R 34.10 keys, which hold one octet string. -/
def gost : List Oid :=
  [[1, 2, 643, 2, 2, 19], [1, 2, 643, 7, 1, 1, 1, 1], [1, 2, 643, 7, 1, 1, 1, 2]]

/-- Reads a public key by its algorithm. -/
def ofInfo? (info : X509.PublicKeyInfo) : Option PublicKey :=
  let is (oid : Oid) : Bool := info.algorithm.oid == oid.contents
  if is Oid.rsaEncryption then
    Tolerant.within (Tolerant.sequence do
      let modulus ← Tolerant.integer
      let exponent ← Tolerant.integer
      return rsa (Octets.stripZeros modulus) (Octets.stripZeros exponent)) info.key
  else if is Oid.ecPublicKey then some (ellipticCurve info.key)
  else if is dsa then (Tolerant.within Tolerant.integer info.key).map fun _ => other
  else if gost.any is then (Tolerant.within (Tolerant.primitive 4) info.key).map fun _ => other
  else some other

end PublicKey

namespace PrivateKey

/-- The public key, in the form in which certificates state it. -/
def publicKey : PrivateKey → PublicKey
  | rsa key => .rsa (Octets.minimal key.n) (Octets.minimal key.e)
  | ecdsaP256 key => .ellipticCurve key.publicOctets

end PrivateKey

/-- Checks that a private key is the one that a certificate certifies. -/
def Certificate.checkKeyPair (cert : Certificate) (key : PrivateKey) : Except Failure Unit := do
  let some parsed := X509.Certificate.read? cert.der | throw (.parse .certificate)
  let some certified := PublicKey.ofInfo? parsed.publicKey | throw (.parse .publicKey)
  if certified ≠ key.publicKey then throw (.keyMismatch key.algorithm cert.subject)

end CertRotation
