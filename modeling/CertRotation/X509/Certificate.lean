import CertRotation.Asn1.Oid
import CertRotation.X509.Time

namespace CertRotation.X509

open Asn1

/-- An algorithm with its parameters. -/
structure Algorithm where
  oid : Octets
  parameters : Option Element
deriving DecidableEq, Repr

/-- One attribute of a name. -/
structure Attribute where
  oid : Octets
  value : Element
deriving DecidableEq, Repr

/-- A public key with its algorithm. -/
structure PublicKeyInfo where
  algorithm : Algorithm
  key : Octets
deriving DecidableEq, Repr

/-- An extension with its contents. -/
structure Extension where
  oid : Octets
  contents : Octets
deriving DecidableEq, Repr

/-- A certificate. The attributes of a name are listed across its parts, and `signed` is the
element that the signature covers. -/
structure Certificate where
  signed : Octets
  serial : Octets
  issuer : List Attribute
  notBefore : Instant
  notAfter : Instant
  subject : List Attribute
  publicKey : PublicKeyInfo
  extensions : List Extension
  signatureAlgorithm : Algorithm
  signature : Octets
deriving DecidableEq, Repr

def algorithm : Reader Algorithm := Tolerant.sequence do
  let oid ← Tolerant.oid
  if (← get).isEmpty then return ⟨oid, none⟩
  else return ⟨oid, some (← Tolerant.element)⟩

def nameAttribute : Reader Attribute := Tolerant.sequence do
  let oid ← Tolerant.oid
  let value ← Tolerant.element
  return ⟨oid, value⟩

/-- Reads one part of a name, which has an attribute or more. -/
def relativeName : Reader (List Attribute) := do
  let contents ← Tolerant.tagged 17
  match Tolerant.leading nameAttribute contents with
  | [] => failure
  | attributes => return attributes

/-- Reads a name: its parts as far as they can be read. -/
def name : Reader (List Attribute) := do
  let contents ← Tolerant.tagged 16
  return (Tolerant.leading relativeName contents).flatten

/-- Reads the start and the end of the validity. -/
def validity : Reader (Instant × Instant) := Tolerant.sequence do
  let notBefore ← time
  let notAfter ← time
  return (notBefore, notAfter)

def publicKeyInfo : Reader PublicKeyInfo := Tolerant.sequence do
  let algorithm ← algorithm
  let key ← Tolerant.bitString
  return ⟨algorithm, key⟩

/-- Passes over a version, if one stands there: an INTEGER of 32 bits. -/
def version : Reader Unit := do
  let _ ← Tolerant.optional 0 Tolerant.leadingWord32?

/-- Passes over a unique identifier with the given context-specific tag, if one stands there. -/
def uniqueId (number : Nat) : Reader Unit := do
  let _ ← Tolerant.optional number fun contents => if contents = [] then none else some ()

/-- Passes over the critical flag, if one stands there. -/
def critical : Reader Unit := fun text =>
  match Tolerant.element text with
  | some (e, rest) =>
    if e.number = 1 ∧ e.contents.length = 1 then some ((), rest) else some ((), text)
  | none => some ((), text)

def extension : Reader Extension := Tolerant.sequence do
  let oid ← Tolerant.oid
  critical
  let contents ← Tolerant.primitive 4
  return ⟨oid, contents⟩

/-- Reads the extensions, which are the last thing in the signed part. -/
def extensions : Reader (List Extension) := fun text =>
  if text.isEmpty then some ([], [])
  else do
    let ((e, _), rest) ← Tolerant.header text
    if e.number ≠ 3 then none
    else
      let (contents, rest) ← Tolerant.tagged 16 rest
      let extensions ← Tolerant.every? extension contents
      if rest.isEmpty then return (extensions, []) else none

/-- Reads the contents of the signed part, whose whole element is `signed`. -/
def signedPart (signed : Octets) : Reader (Algorithm → Octets → Certificate) := do
  version
  let serial ← Tolerant.tagged 2
  let _ ← algorithm
  let issuer ← name
  let (notBefore, notAfter) ← validity
  let subject ← name
  let publicKey ← publicKeyInfo
  uniqueId 1
  uniqueId 2
  let extensions ← extensions
  return fun signatureAlgorithm signature =>
    { signed, serial, issuer, notBefore, notAfter, subject, publicKey, extensions,
      signatureAlgorithm, signature }

def certificate : Reader Certificate := Tolerant.sequence do
  let text ← get
  let contents ← Tolerant.tagged 16
  let signed := text.take (text.length - (← get).length)
  let build ← Tolerant.within (signedPart signed) contents
  let signatureAlgorithm ← algorithm
  let signature ← Tolerant.bitString
  return build signatureAlgorithm signature

/-- The certificate at the front of an octet string. -/
def Certificate.read? (der : Octets) : Option Certificate :=
  Tolerant.within certificate der

/-- The contents of the extension of a kind, if there is exactly one. -/
def Certificate.extension? (cert : Certificate) (oid : Oid) : Option Octets :=
  match cert.extensions.filter (·.oid == oid.contents) with
  | [e] => some e.contents
  | _ => none

end CertRotation.X509
