import CertRotation.IpAddress
import CertRotation.Usage

namespace CertRotation

/-- A common name, empty when there is none, and organizations in order. -/
structure DistinguishedName where
  commonName : String
  organization : List String
deriving DecidableEq, Repr

namespace DistinguishedName

def empty : DistinguishedName := ⟨"", []⟩

/-- The text `CN=..`, with `,O=..` for every organization. -/
def text (name : DistinguishedName) : String :=
  "CN=" ++ name.commonName ++ String.join (name.organization.map (",O=" ++ ·))

end DistinguishedName

/-- The request for one certificate. Alternative names and purposes concern leaves only. -/
structure SubjectConfig where
  commonName : String
  organization : List String
  dnsNames : List String
  ips : List IpAddress
  usages : List ExtendedKeyUsage
deriving DecidableEq, Repr

namespace SubjectConfig

def subject (config : SubjectConfig) : DistinguishedName :=
  ⟨config.commonName, config.organization⟩

end SubjectConfig

end CertRotation
