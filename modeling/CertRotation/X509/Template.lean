import CertRotation.Crypto.Digest.Sha256
import CertRotation.Octets
import CertRotation.Subject
import CertRotation.SubjectAltName
import CertRotation.Usage
import CertRotation.X509.Time

namespace CertRotation.X509

open Asn1

/-- Writes one part of a name, which holds one attribute. -/
def encodeAttribute (oid : Oid) (value : String) : Octets :=
  setOf [sequence [oid.encode, encode 0x0c (Utf8.encode value)]]

/-- Writes a name. Several organizations share one attribute, parted by a comma and a blank. -/
def encodeName (name : DistinguishedName) : Octets :=
  let organization :=
    if name.organization.isEmpty then []
    else [encodeAttribute Oid.organizationName (", ".intercalate name.organization)]
  sequence (encodeAttribute Oid.commonName name.commonName :: organization)

def encodeExtension (oid : Oid) (critical : Bool) (contents : Octets) : Octets :=
  let flag := if critical then [booleanTrue] else []
  sequence (oid.encode :: flag ++ [octetString contents])

/-- The key usage extension. Its bits fill a second octet, whose last seven bits are unused. -/
def keyUsageExtension (usages : List KeyUsage) : Octets :=
  let octet := usages.foldr (fun usage rest => Nat.pow 2 (7 - usage.bit) + rest) 0
  encodeExtension Oid.keyUsage true (encode 0x03 [7, UInt8.ofNat octet, 0])

def encodeAltName : SubjectAltName → Octets
  | .dns name => implicit 2 (Utf8.encode name)
  | .ip address => implicit 7 address.octets

def altNameExtension (names : List SubjectAltName) : Octets :=
  encodeExtension Oid.subjectAltName false (sequence (names.map encodeAltName))

def extendedKeyUsageExtension (usages : List ExtendedKeyUsage) : Octets :=
  encodeExtension Oid.extKeyUsage false (sequence (usages.map (·.oid.encode)))

def authorityExtension : Octets :=
  encodeExtension Oid.basicConstraints true (sequence [booleanTrue])

/-- The number of octets of a digest that identify a key. -/
def keyIdentifierOctets : Nat := 20

/-- The extension with the identifier of the certified key. -/
def keyIdentifierExtension (publicKeyInfo : Octets) : Octets :=
  encodeExtension Oid.subjectKeyIdentifier false
    (octetString ((Digest.sha256 publicKeyInfo).take keyIdentifierOctets))

/-- What a certificate is to say. The public key and the extensions are already written. -/
structure Template where
  serial : Nat
  issuer : DistinguishedName
  notBefore : Instant
  notAfter : Instant
  subject : DistinguishedName
  publicKeyInfo : Octets
  extensions : List Octets

namespace Template

def version : Nat := 2

/-- The part that is signed, for a signature with a given algorithm. -/
def signedPart (template : Template) (algorithm : Octets) : Octets :=
  sequence [
    explicit 0 (natural version),
    natural template.serial,
    algorithm,
    encodeName template.issuer,
    sequence [encodeTime template.notBefore, encodeTime template.notAfter],
    encodeName template.subject,
    template.publicKeyInfo,
    explicit 3 (sequence template.extensions)]

end Template

end CertRotation.X509
