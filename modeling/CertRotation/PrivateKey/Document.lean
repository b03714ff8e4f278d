import CertRotation.PrivateKey.Basic

namespace CertRotation

open Asn1

/-- The SEC1 form with the scalar in 32 octets and the uncompressed public point. -/
def P256.SecretKey.sec1 (key : P256.SecretKey) : Octets :=
  sequence [natural 1, octetString key.octets, explicit 1 (bitString key.publicOctets)]

def P256.minScalarOctets : Nat := 24

/-- The key of a scalar in 24 to 32 octets, whose public point is the stated one if one is
stated. -/
def P256.SecretKey.ofOctets? (scalar : Octets) (stated : Option Octets) :
    Option P256.SecretKey := do
  if scalar.length < P256.minScalarOctets ∨ Curve.p256.scalarOctets < scalar.length then none
  let key ← P256.SecretKey.ofScalar? (Octets.value scalar)
  match stated with
  | none => return key
  | some point =>
    if point = key.publicOctets ∨ point = Curve.p256.encodeCompressed key.publicPoint then
      return key
    else none

/-- Reads the SEC1 form. The optional curve may be any object identifier. -/
def P256.SecretKey.ofSec1? (der : Octets) : Option P256.SecretKey :=
  Strict.whole (Strict.sequence do
    let version ← Strict.natural
    let scalar ← Strict.octetString
    let curve ← Strict.explicit? 0
    let point ← Strict.explicit? 1
    if version ≠ 1 then failure
    if let some contents := curve then
      let _ ← Strict.whole Strict.oid contents
    let stated ← point.mapM fun contents => (Strict.whole Strict.bitString contents : Option Octets)
    P256.SecretKey.ofOctets? scalar stated) der

/-- The PKCS#1 form, unless the primes have a common factor. -/
def Rsa.SecretKey.pkcs1? (key : Rsa.SecretKey) : Option Octets := do
  let qInv ← key.qInv?
  return sequence ([0, key.n, key.e, key.d, key.p, key.q, key.dP, key.dQ, qInv].map natural)

/-- Reads the PKCS#1 form of a key with two primes. The last three numbers follow from the others
and are passed over. -/
def Rsa.SecretKey.ofPkcs1? (der : Octets) : Option Rsa.SecretKey :=
  Strict.whole (Strict.sequence do
    let version ← Strict.natural
    let n ← Strict.natural
    let e ← Strict.natural
    let d ← Strict.natural
    let p ← Strict.natural
    let q ← Strict.natural
    let _ ← Strict.natural
    let _ ← Strict.natural
    let _ ← Strict.natural
    if version ≠ 0 then failure
    Rsa.SecretKey.ofNumbers? n e d p q) der

/-- The contents of a PKCS#8 document: the algorithm with its parameters, and the key inside. -/
structure Pkcs8 where
  algorithm : Octets
  parameters : Option (UInt8 × Octets)
  key : Octets
deriving DecidableEq

namespace Pkcs8

/-- Passes over context-specific elements to the end; each holds exactly one element. -/
def skipFields : (budget : Nat) → Octets → Option Unit
  | 0, text => if text.isEmpty then some () else none
  | budget + 1, text =>
    if text.isEmpty then some ()
    else do
      let ((tag, contents), rest) ← Strict.element text
      if tag < 0xa0 ∨ 0xc0 ≤ tag then none
      else
        let _ ← Strict.whole Strict.element contents
        skipFields budget rest

/-- Reads a document. Version 0 has no public key and version 1 has one; attributes are passed
over. -/
def decode? (der : Octets) : Option Pkcs8 :=
  Strict.whole (Strict.sequence do
    let version ← Strict.natural
    let (algorithm, parameters) ← Strict.sequence do
      let algorithm ← Strict.oid
      if (← get).isEmpty then return (algorithm, none)
      else return (algorithm, some (← Strict.element))
    let key ← Strict.octetString
    let point ← Strict.implicit? 1
    let rest ← get
    let _ ← point.mapM fun contents => (Strict.bits? contents : Option Octets)
    skipFields rest.length rest
    set ([] : Octets)
    if version = 0 ∧ point.isNone ∨ version = 1 ∧ point.isSome then
      return ⟨algorithm, parameters, key⟩
    else failure) der

end Pkcs8

/-- The algorithm of P-256 keys: elliptic curve keys, with the curve as parameter. -/
def P256.algorithmDer : Octets := sequence [Oid.ecPublicKey.encode, Oid.prime256v1.encode]

/-- The algorithm of RSA keys, with NULL as parameter. -/
def Rsa.algorithmDer : Octets := sequence [Oid.rsaEncryption.encode, null]

namespace PrivateKey

/-- The PKCS#8 form, unless an RSA key has no PKCS#1 form. -/
def pkcs8? : PrivateKey → Option Octets
  | ecdsaP256 key => some (sequence [natural 0, P256.algorithmDer, octetString key.sec1])
  | rsa key => do
    let document ← key.pkcs1?
    return sequence [natural 0, Rsa.algorithmDer, octetString document]

/-- Reads the PKCS#8 form of a key of either algorithm. -/
def ofPkcs8? (der : Octets) : Option PrivateKey := do
  let document ← Pkcs8.decode? der
  if document.algorithm = Oid.ecPublicKey.contents ∧
      document.parameters = some (0x06, Oid.prime256v1.contents) then
    (P256.SecretKey.ofSec1? document.key).map ecdsaP256
  else if document.algorithm = Oid.rsaEncryption.contents ∧
      document.parameters = some (0x05, []) then
    (Rsa.SecretKey.ofPkcs1? document.key).map rsa
  else none

/-- The public key with its algorithm, as certificates carry it. -/
def publicKeyInfo : PrivateKey → Octets
  | ecdsaP256 key => sequence [P256.algorithmDer, bitString key.publicOctets]
  | rsa key =>
    sequence [Rsa.algorithmDer, bitString (sequence [natural key.n, natural key.e])]

end PrivateKey

end CertRotation
