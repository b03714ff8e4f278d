import CertRotation.Json.Decode
import CertRotation.Subject

namespace CertRotation

/-- A list of items, each written alike. -/
def Json.ofList {α : Type} (write : α → Json) (items : List α) : Json := .array (items.map write)

def IpAddress.toJson (address : IpAddress) : Json := .ofString (String.ofList address.text)

def IpAddress.ofJson? (value : Json) : Option IpAddress := do
  IpAddress.parse? (← value.toText?).toList

/-- The record of the two parts of a name. -/
def DistinguishedName.toJson (name : DistinguishedName) : Json :=
  .record [("common_name", .ofString name.commonName), ("organization", .texts name.organization)]

def DistinguishedName.ofJson? (value : Json) : Option DistinguishedName := do
  let [commonName, organization] ← value.fields? ["common_name", "organization"] | none
  return ⟨← (← commonName).toText?, ← (← organization).toList? Json.toText?⟩

def ExtendedKeyUsage.toJson (usage : ExtendedKeyUsage) : Json := .ofString usage.name

def ExtendedKeyUsage.ofJson? (value : Json) : Option ExtendedKeyUsage := do
  let name ← value.toCase?
  ExtendedKeyUsage.all.find? (·.name == name)

namespace SubjectConfig

/-- The record of a request, with the alternative names in a record of their own. -/
def toJson (config : SubjectConfig) : Json :=
  .record [
    ("common_name", .ofString config.commonName),
    ("organization", .texts config.organization),
    ("alt_names", .record [
      ("dns_names", .texts config.dnsNames),
      ("ips", .ofList IpAddress.toJson config.ips)]),
    ("usages", .ofList ExtendedKeyUsage.toJson config.usages)]

def ofJson? (value : Json) : Option SubjectConfig := do
  let [commonName, organization, altNames, usages] ←
    value.fields? ["common_name", "organization", "alt_names", "usages"] | none
  let [dnsNames, ips] ← (← altNames).fields? ["dns_names", "ips"] | none
  return ⟨← (← commonName).toText?, ← (← organization).toList? Json.toText?,
    ← (← dnsNames).toList? Json.toText?, ← (← ips).toList? IpAddress.ofJson?,
    ← (← usages).toList? ExtendedKeyUsage.ofJson?⟩

end SubjectConfig

end CertRotation
