import CertRotation.Subject
import CertRotation.SubjectAltName
import CertRotation.Time.Instant
import CertRotation.Usage

namespace CertRotation

/-- A certificate record. The serial number is big-endian without zeros in front. -/
structure Certificate where
  der : Octets
  serial : Octets
  notBefore : Instant
  notAfter : Instant
  subject : DistinguishedName
  issuer : DistinguishedName
  san : List SubjectAltName
  isCa : Bool
  keyUsages : List KeyUsage
  extendedKeyUsages : List ExtendedKeyUsage
deriving DecidableEq, Repr

namespace Certificate

/-- A record of a validity window and two names. The encoding is not looked at. -/
def ofWindow (der : Octets) (notBefore notAfter : Instant) (subject issuer : DistinguishedName) :
    Certificate :=
  ⟨der, [], notBefore, notAfter, subject, issuer, [], false, [], []⟩

/-- The host names, in order. -/
def dnsNames (cert : Certificate) : List String := cert.san.filterMap SubjectAltName.dns?

/-- The addresses, in order. -/
def ipAddresses (cert : Certificate) : List IpAddress := cert.san.filterMap SubjectAltName.ip?

/-- The serial number, if it has at most 64 bits. -/
def serialWord? (cert : Certificate) : Option UInt64 :=
  if cert.serial.length > 8 then none
  else some (cert.serial.foldl (fun acc byte => (acc <<< 8) ||| byte.toUInt64) 0)

/-- Whether the certificate names itself as its issuer. -/
def isSelfIssued (cert : Certificate) : Bool := cert.subject == cert.issuer

/-- Whether the end of validity has passed. -/
def isExpiredAt (cert : Certificate) (t : Instant) : Bool := cert.notAfter < t

/-- Whether the start of validity is still to come. -/
def isNotYetValidAt (cert : Certificate) (t : Instant) : Bool := t < cert.notBefore

/-- Whether an instant lies in the validity window, both ends included. -/
def isValidAt (cert : Certificate) (t : Instant) : Bool :=
  !cert.isExpiredAt t && !cert.isNotYetValidAt t

/-- The time left before the end of validity; none is left at the end itself. -/
def remainingAt (cert : Certificate) (t : Instant) : Option Duration :=
  if t < cert.notAfter then some (cert.notAfter.since t) else none

end Certificate

end CertRotation
