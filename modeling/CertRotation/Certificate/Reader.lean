import CertRotation.Certificate.Basic
import CertRotation.Failure
import CertRotation.Pem
import CertRotation.X509.Certificate

namespace CertRotation.Certificate

open Asn1

/-- The text of an attribute value of a string type that holds UTF-8. -/
def attributeText? (value : Element) : Option String :=
  if [12, 18, 19, 22].contains value.number then Utf8.decode? value.contents else none

/-- The name that a list of attributes gives: the first common name, which must be a text, and the
organizations that are texts. -/
def nameOf? (attributes : List X509.Attribute) : Option DistinguishedName := do
  let of (oid : Oid) := attributes.filter (·.oid == oid.contents)
  let commonName ←
    match of Oid.commonName with
    | [] => some ""
    | first :: _ => attributeText? first.value
  return ⟨commonName, (of Oid.organizationName).filterMap (attributeText? ·.value)⟩

/-- Reads one alternative name; `none` inside stands for one of a kind that is not kept. -/
def altName : Reader (Option SubjectAltName) := do
  let e ← Tolerant.element
  if e.tagClass ≠ .contextSpecific then failure
  match e.number with
  | 0 =>
    let _ ← Tolerant.within Tolerant.oid e.contents
    return none
  | 1 | 6 =>
    let _ ← Utf8.decode? e.contents
    return none
  | 2 => return some (.dns (← Utf8.decode? e.contents))
  | 4 =>
    match X509.name e.contents with
    | some (_, []) => return none
    | _ => failure
  | 7 => return (IpAddress.ofOctets? e.contents).map .ip
  | 3 | 5 | 8 => return none
  | _ => failure

/-- The alternative names of an extension, if all of them can be read. -/
def altNames? (contents : Octets) : Option (List SubjectAltName) := do
  let names ← Tolerant.within (Tolerant.tagged 16) contents
  return (← Tolerant.every? altName names).filterMap id

/-- The truth value of an element, if it is a BOOLEAN; every octet but zero is true. -/
def truth? (e : Element) : Option Bool :=
  match e.tagClass, e.number, e.contents with
  | .universal, 1, [value] => some (value != 0)
  | _, _, _ => none

/-- Whether an element is an INTEGER that fits a path length. -/
def isPathLength (e : Element) : Bool :=
  e.tagClass == .universal && e.number == 2 && (Tolerant.word32? e.contents).isSome

/-- Whether an extension marks an authority: a flag, and at most a path length after it. -/
def isAuthority (contents : Octets) : Bool :=
  match (Tolerant.within (Tolerant.tagged 16) contents).bind (Tolerant.every? Tolerant.element) with
  | some [flag] => truth? flag == some true
  | some [flag, pathLength] => truth? flag == some true && isPathLength pathLength
  | _ => false

/-- The key usages whose bits are set. -/
def keyUsagesOf (contents : Octets) : List KeyUsage :=
  match (Tolerant.within Tolerant.bitString contents).bind (·.head?) with
  | none => []
  | some first => KeyUsage.all.filter fun usage => first.toNat.testBit (7 - usage.bit)

/-- The purposes that are listed, if the whole list can be read. -/
def extendedKeyUsagesOf (contents : Octets) : List ExtendedKeyUsage :=
  let listed :=
    ((Tolerant.within (Tolerant.tagged 16) contents).bind (Tolerant.every? Tolerant.oid)).getD []
  ExtendedKeyUsage.all.filter fun usage => listed.contains usage.oid.contents

def ofDer (der : Octets) : Except Failure Certificate := do
  let some cert := X509.Certificate.read? der | throw (.parse .certificate)
  let some subject := nameOf? cert.subject | throw (.parse .commonName)
  let some issuer := nameOf? cert.issuer | throw (.parse .commonName)
  return {
    der
    serial := Octets.stripZeros cert.serial
    notBefore := cert.notBefore
    notAfter := cert.notAfter
    subject
    issuer
    san := ((cert.extension? Oid.subjectAltName).bind altNames?).getD []
    isCa := (cert.extension? Oid.basicConstraints).any isAuthority
    keyUsages := ((cert.extension? Oid.keyUsage).map keyUsagesOf).getD []
    extendedKeyUsages := ((cert.extension? Oid.extKeyUsage).map extendedKeyUsagesOf).getD []
  }

def blockLabel : String := "CERTIFICATE"

def pem (cert : Certificate) : String := Pem.render ⟨blockLabel, cert.der⟩

/-- The file text of several certificates, in order. -/
def pemOfList (certs : List Certificate) : String := String.join (certs.map pem)

/-- Every certificate of a file, in order. Blocks of other kinds are passed over; a certificate
block that cannot be read, or a file without one, is refused. -/
def decodePem (text : Octets) : Except Failure (List Certificate) := do
  let .ok blocks := Pem.parse text | throw (.parse .malformedPem)
  let certs ← (blocks.filter (·.label == blockLabel)).mapM fun block => ofDer block.contents
  if certs.isEmpty then throw (.parse .noCertificate)
  return certs

end CertRotation.Certificate
