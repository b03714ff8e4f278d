import CertRotation.Certificate.Basic
import CertRotation.JsonForm.SubjectConfig
import CertRotation.Time.Reader
import CertRotation.Time.Text

namespace CertRotation

/-- The list of the octets as numbers. -/
def Octets.toJson (bytes : Octets) : Json := .ofList (fun byte => .ofNat byte.toNat) bytes

/-- Reads a list of numbers below 256. -/
def Octets.ofJson? (value : Json) : Option Octets :=
  value.toList? fun item => do
    let n ← item.toWord?
    if n < 256 then return UInt8.ofNat n else none

def Instant.toJson (t : Instant) : Json := .ofString t.isoText

def Instant.ofJson? (value : Json) : Option Instant := do
  Instant.parse? (← value.toText?)

def SubjectAltName.toJson : SubjectAltName → Json
  | dns name => .record [("Dns", .ofString name)]
  | ip address => .record [("Ip", address.toJson)]

def SubjectAltName.ofJson? (value : Json) : Option SubjectAltName := do
  match ← value.toTagged? with
  | ("Dns", name) => return dns (← name.toText?)
  | ("Ip", address) => return ip (← IpAddress.ofJson? address)
  | _ => none

def KeyUsage.toJson (usage : KeyUsage) : Json := .ofString usage.name

/-- Reads a key usage from its name. -/
def KeyUsage.ofJson? (value : Json) : Option KeyUsage := do
  let name ← value.toCase?
  KeyUsage.all.find? (·.name == name)

namespace Certificate

/-- The names of the fields in order. -/
def fieldNames : List String :=
  ["der", "serial", "not_before", "not_after", "subject", "issuer", "san", "is_ca", "key_usages",
    "extended_key_usages"]

def toJson (cert : Certificate) : Json :=
  .record (fieldNames.zip [
    cert.der.toJson, cert.serial.toJson, cert.notBefore.toJson, cert.notAfter.toJson,
    cert.subject.toJson, cert.issuer.toJson, .ofList SubjectAltName.toJson cert.san,
    .bool cert.isCa, .ofList KeyUsage.toJson cert.keyUsages,
    .ofList ExtendedKeyUsage.toJson cert.extendedKeyUsages])

/-- Reads a record; none of its fields may be left out. -/
def ofJson? (value : Json) : Option Certificate := do
  let [der, serial, notBefore, notAfter, subject, issuer, san, isCa, keyUsages,
    extendedKeyUsages] ← (← value.fields? fieldNames).mapM id | none
  return {
    der := ← Octets.ofJson? der
    serial := ← Octets.ofJson? serial
    notBefore := ← Instant.ofJson? notBefore
    notAfter := ← Instant.ofJson? notAfter
    subject := ← DistinguishedName.ofJson? subject
    issuer := ← DistinguishedName.ofJson? issuer
    san := ← san.toList? SubjectAltName.ofJson?
    isCa := ← isCa.toBool?
    keyUsages := ← keyUsages.toList? KeyUsage.ofJson?
    extendedKeyUsages := ← extendedKeyUsages.toList? ExtendedKeyUsage.ofJson? }

end Certificate

end CertRotation
