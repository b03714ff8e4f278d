import CertRotation.Issuance.Authority

namespace CertRotation

abbrev LeafSerial := Fin (Nat.pow 2 63 - 1)

/-- The serial number that a random number picks. -/
def LeafSerial.ofRandom (random : Nat) : LeafSerial :=
  ⟨random % (Nat.pow 2 63 - 1), Nat.mod_lt _ (by decide)⟩

/-- Checks the parts of a request without which no leaf is issued. -/
def SubjectConfig.checkLeaf (config : SubjectConfig) : Except Failure Unit := do
  if config.commonName = "" then throw (.invalidConfig .missingCommonName)
  if config.usages = [] then throw (.invalidConfig .missingUsage)

/-- The alternative names of a request, host names first. -/
def SubjectConfig.altNames (config : SubjectConfig) : List SubjectAltName :=
  config.dnsNames.map .dns ++ config.ips.map .ip

namespace Issuance

/-- Whether a host name can be written: it has ASCII characters alone. -/
def isWritableName (name : String) : Bool := name.toList.all fun c => c.toNat < 128

/-- What the certificate of a leaf says. -/
def leafTemplate (config : SubjectConfig) (key : PrivateKey) (issuer : DistinguishedName)
    (serial : LeafSerial) (notBefore notAfter : Instant) : X509.Template where
  serial := serial
  issuer := issuer
  notBefore := notBefore
  notAfter := notAfter
  subject := config.subject
  publicKeyInfo := key.publicKeyInfo
  extensions :=
    (if config.altNames.isEmpty then [] else [X509.altNameExtension config.altNames]) ++ [
      X509.keyUsageExtension [.digitalSignature, .keyEncipherment],
      X509.extendedKeyUsageExtension config.usages]

/-- A new leaf for a key, signed with the key of an authority. It is valid from the authority's
first instant until a duration from now. -/
def issueLeaf (config : SubjectConfig) (key : PrivateKey) (ca : Certificate) (caKey : PrivateKey)
    (duration : Duration) (now : Instant) (serial : LeafSerial) : Except Failure Certificate := do
  config.checkLeaf
  if let some name := config.dnsNames.find? (!isWritableName ·) then
    throw (.invalidConfig (.dnsName name))
  if !isWritable ca.notBefore then throw (.signing .timeRange)
  let some notAfter := endOfValidity? now duration | throw (.invalidConfig (.duration duration))
  if !isWritable notAfter then throw (.signing .timeRange)
  key.checkSigningKey
  caKey.checkSigningKey
  checkWritable ca.notBefore ca.notAfter
  Certificate.ofDer
    ((leafTemplate config key ca.subject serial ca.notBefore notAfter).certificate caKey)

end Issuance

end CertRotation
