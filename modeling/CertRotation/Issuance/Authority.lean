import CertRotation.Certificate.Reader
import CertRotation.Issuance.SigningKey
import CertRotation.X509.Time

namespace CertRotation.Issuance

/-- The serial number of every authority. -/
def authoritySerial : Nat := 0

/-- What the certificate of an authority says. -/
def authorityTemplate (subject : DistinguishedName) (key : PrivateKey)
    (notBefore notAfter : Instant) : X509.Template where
  serial := authoritySerial
  issuer := subject
  notBefore := notBefore
  notAfter := notAfter
  subject := subject
  publicKeyInfo := key.publicKeyInfo
  extensions := [
    X509.keyUsageExtension [.digitalSignature, .keyEncipherment, .keyCertSign],
    X509.keyIdentifierExtension key.publicKeyInfo,
    X509.authorityExtension]

/-- Checks that the ends of a validity can be written. -/
def checkWritable (notBefore notAfter : Instant) : Except Failure Unit :=
  if isWritable notBefore && isWritable notAfter then .ok () else .error (.signing .timeRange)

/-- A new authority for a key, valid from now for a duration. -/
def issueAuthority (config : SubjectConfig) (key : PrivateKey) (duration : Duration)
    (now : Instant) : Except Failure Certificate := do
  key.checkSigningKey
  let some notAfter := endOfValidity? now duration | throw (.invalidConfig (.duration duration))
  checkWritable now notAfter
  Certificate.ofDer ((authorityTemplate config.subject key now notAfter).certificate key)

end CertRotation.Issuance
