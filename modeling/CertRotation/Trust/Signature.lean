import CertRotation.Certificate.Basic
import CertRotation.Crypto.Curve
import CertRotation.Crypto.Ed25519
import CertRotation.Crypto.Rsa
import CertRotation.Failure
import CertRotation.X509.Certificate

namespace CertRotation.X509

open Asn1

/-- How a signature is to be checked. -/
inductive SignatureScheme where
  | rsa (digest : Digest.Algorithm)
  | rsaPss (digest : Digest.Algorithm)
  | ecdsa (curve : Curve) (digest : Digest.Algorithm)
  | ed25519
deriving Repr

/-- Reads the digest that parameters of an RSA-PSS signature name. The mask, the length of the salt
and the trailer have to be readable, but are not used. -/
def pssDigest : Reader (Option Octets) := do
  let digest ← Tolerant.optional 0 (Tolerant.within algorithm)
  let _mask ← Tolerant.optional 1 (Tolerant.within algorithm)
  let _saltLength ← Tolerant.optional 2 Tolerant.leadingWord32?
  let _trailer ← Tolerant.optional 3 Tolerant.leadingWord32?
  return digest.map Algorithm.oid

/-- The scheme of an RSA-PSS signature with the given parameters. SHA-1, which is meant if no digest
is named, is not accepted. -/
def pssScheme? (parameters : Element) : Option SignatureScheme := do
  if parameters.number ≠ 16 then none
  let named ← Tolerant.within pssDigest parameters.contents
  let digest ← [Digest.Algorithm.sha256, .sha384, .sha512].find? (some ·.oid.contents == named)
  return .rsaPss digest

/-- The scheme of an ECDSA signature under a key on the curve that the key names. -/
def ecdsaScheme? (digest : Digest.Algorithm) (key : PublicKeyInfo) : Option SignatureScheme := do
  let curve ← key.algorithm.parameters
  if curve.contents = Oid.prime256v1.contents then some (.ecdsa .p256 digest)
  else if curve.contents = Oid.secp384r1.contents then some (.ecdsa .p384 digest)
  else none

/-- The scheme that an algorithm and the key of the signer call for. -/
def scheme? (signature : Algorithm) (key : PublicKeyInfo) : Option SignatureScheme :=
  let is (oid : Oid) : Bool := signature.oid == oid.contents
  if is Oid.sha1WithRsa || is Oid.oiwSha1WithRsa then some (.rsa .sha1)
  else if is Oid.sha256WithRsa then some (.rsa .sha256)
  else if is Oid.sha384WithRsa then some (.rsa .sha384)
  else if is Oid.sha512WithRsa then some (.rsa .sha512)
  else if is Oid.rsassaPss then signature.parameters.bind pssScheme?
  else if is Oid.ecdsaWithSha256 then ecdsaScheme? .sha256 key
  else if is Oid.ecdsaWithSha384 then ecdsaScheme? .sha384 key
  else if is Oid.ed25519 then some .ed25519
  else none

/-- The smallest modulus, in bits, that RSA signatures over a digest are checked with. -/
def minRsaBits : Digest.Algorithm → Nat
  | .sha1 => 1024
  | _ => 2048

/-- The largest modulus, in bits, that RSA signatures are checked with. -/
def maxRsaBits : Nat := 8192

/-- Reads an RSA public key in strict form: modulus and exponent. -/
def rsaPublicKey? (key : Octets) : Option (Nat × Nat) :=
  Strict.whole (Strict.sequence do
    let n ← Strict.natural
    let e ← Strict.natural
    return (n, e)) key

/-- Whether an RSA public key is one that signatures over a digest are checked with. The length of
the modulus is rounded up to whole octets for the lower bound. -/
def isUsableRsaKey (digest : Digest.Algorithm) (n e : Nat) : Bool :=
  n % 2 == 1 && minRsaBits digest ≤ Octets.width n * 8 && Rsa.bits n ≤ maxRsaBits &&
    e % 2 == 1 && 3 ≤ e && e ≤ Rsa.maxExponent

/-- Whether the modulus and the exponent of a public key are usable, and a signature over a digest
passes a check with them. -/
def verifyRsa (digest : Digest.Algorithm) (key : Octets) (check : Nat → Nat → Bool) : Bool :=
  match rsaPublicKey? key with
  | none => false
  | some (n, e) => isUsableRsaKey digest n e && check n e

/-- Whether a signature of a message holds under a public key. -/
def SignatureScheme.verify (scheme : SignatureScheme) (key message signature : Octets) : Bool :=
  match scheme with
  | rsa digest => verifyRsa digest key fun n e => Rsa.verify digest n e message signature
  | rsaPss digest => verifyRsa digest key fun n e => Rsa.verifyPss digest n e message signature
  | ecdsa curve digest =>
    match curve.decodePoint? key, curve.decodeSignature? signature with
    | some point, some signature => curve.verify point (digest.digest message) signature
    | _, _ => false
  | ed25519 => Ed25519.verify key message signature

/-- Why the signature of a certificate does not hold under a public key; `none` if it does. -/
def Certificate.signatureFault? (cert : Certificate) (key : PublicKeyInfo) :
    Option SignatureFault :=
  match scheme? cert.signatureAlgorithm key with
  | none => some .unsupported
  | some scheme => if scheme.verify key.key cert.signed cert.signature then none else some .mismatch

end CertRotation.X509

namespace CertRotation.Certificate

/-- Why a certificate cannot be taken as signed with the key of another; `none` if it can. Both are
judged by their encodings. -/
def signatureFault? (cert issuer : Certificate) : Option ChainFault :=
  match X509.Certificate.read? cert.der, X509.Certificate.read? issuer.der with
  | none, _ => some .leafUnreadable
  | _, none => some .rootUnreadable
  | some signed, some signer =>
    (signed.signatureFault? signer.publicKey).map (.signature cert.subject)

end CertRotation.Certificate
