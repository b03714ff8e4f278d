import CertRotation.Certificate.Basic

/-!
Which hosts a certificate is good for. Dots at the end of a name do not count, nor does the case of
ASCII letters; a pattern `*.rest` covers one label that is not empty.
-/

namespace CertRotation.Hostname

/-- A name without the dots at its end. -/
def trimDots (name : List Char) : List Char :=
  (name.reverse.dropWhile (· == '.')).reverse

/-- Whether two texts are equal but for the case of ASCII letters. -/
def sameIgnoringCase (a b : List Char) : Bool :=
  a.map Char.toLower == b.map Char.toLower

/-- What follows the first label and its dot; `none` for a name of one label or one that begins
with a dot. -/
def afterLabel? (name : List Char) : Option (List Char) :=
  match name.span (· != '.') with
  | (_ :: _, '.' :: rest) => some rest
  | _ => none

/-- Whether a host is covered by a pattern. -/
def isCoveredBy (host pattern : String) : Bool :=
  let host := trimDots host.toList
  match trimDots pattern.toList with
  | '*' :: '.' :: suffix => (afterLabel? host).any (sameIgnoringCase · suffix)
  | pattern => sameIgnoringCase pattern host

end CertRotation.Hostname

namespace CertRotation.Certificate

/-- Whether a certificate is good for a host. Addresses are looked up among the addresses alone, and
names among the names alone. -/
def isGoodFor (cert : Certificate) (host : String) : Bool :=
  match IpAddress.parse? host.toList with
  | some address => cert.ipAddresses.contains address
  | none => cert.dnsNames.any (Hostname.isCoveredBy host)

/-- Whether a certificate may identify a server: it lists no purpose, or this one, or any. -/
def allowsServerAuth (cert : Certificate) : Bool :=
  cert.extendedKeyUsages.isEmpty || cert.extendedKeyUsages.contains .serverAuth ||
    cert.extendedKeyUsages.contains .any

end CertRotation.Certificate
