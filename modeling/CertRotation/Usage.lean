import CertRotation.Asn1.Oid

namespace CertRotation

/-- The key usage bits that are looked at. -/
inductive KeyUsage where
  | digitalSignature
  | keyEncipherment
  | keyCertSign
  | crlSign
deriving DecidableEq, Repr

namespace KeyUsage

/-- All of them, in the order they are listed in. -/
def all : List KeyUsage := [digitalSignature, keyEncipherment, keyCertSign, crlSign]

/-- The number of the bit, counted from the most significant one of the first octet. -/
def bit : KeyUsage → Nat
  | digitalSignature => 0
  | keyEncipherment => 2
  | keyCertSign => 5
  | crlSign => 6

def name : KeyUsage → String
  | digitalSignature => "DigitalSignature"
  | keyEncipherment => "KeyEncipherment"
  | keyCertSign => "KeyCertSign"
  | crlSign => "CrlSign"

end KeyUsage

/-- A purpose that a certificate is issued for. -/
inductive ExtendedKeyUsage where
  | any
  | serverAuth
  | clientAuth
  | codeSigning
  | emailProtection
deriving DecidableEq, Repr

namespace ExtendedKeyUsage

/-- All of them, in the order they are listed in. -/
def all : List ExtendedKeyUsage := [any, serverAuth, clientAuth, codeSigning, emailProtection]

def oid : ExtendedKeyUsage → Asn1.Oid
  | any => [2, 5, 29, 37, 0]
  | serverAuth => [1, 3, 6, 1, 5, 5, 7, 3, 1]
  | clientAuth => [1, 3, 6, 1, 5, 5, 7, 3, 2]
  | codeSigning => [1, 3, 6, 1, 5, 5, 7, 3, 3]
  | emailProtection => [1, 3, 6, 1, 5, 5, 7, 3, 4]

def name : ExtendedKeyUsage → String
  | any => "Any"
  | serverAuth => "ServerAuth"
  | clientAuth => "ClientAuth"
  | codeSigning => "CodeSigning"
  | emailProtection => "EmailProtection"

end ExtendedKeyUsage

end CertRotation
