import CertRotation.Certificate.Reader
import CertRotation.Trust.Hostname
import CertRotation.Trust.Signature

namespace CertRotation

/-- Trusted roots in the order of their bundle. -/
structure TrustPool where
  roots : List Certificate
  roots_ne_nil : roots ≠ []

namespace TrustPool

/-- The roots of a bundle: all of its certificates that can be read. Other blocks are passed
over. -/
def ofPem (bundle : Octets) : Except Failure TrustPool := do
  let .ok blocks := Pem.parse bundle | throw (.trustStore .malformedPem)
  let roots := (blocks.filter (·.label == Certificate.blockLabel)).filterMap fun block =>
    (Certificate.ofDer block.contents).toOption
  if h : roots = [] then throw (.trustStore .empty) else return ⟨roots, h⟩

/-- Why a root with the right name did not issue a certificate; `none` if it did. -/
def rootFault? (leaf root : Certificate) (now : Instant) : Option ChainFault :=
  if !root.isCa then some (.rootNotCa root.subject)
  else if !root.isValidAt now then some (.rootOutsideValidity root.subject)
  else leaf.signatureFault? root

/-- The first root that issued a certificate. Failing that, the fault is that of the last root with
the right name. -/
def findIssuer (pool : TrustPool) (leaf : Certificate) (now : Instant) :
    Except ChainFault Certificate :=
  let named := pool.roots.filter (·.subject == leaf.issuer)
  match named.find? fun root => (rootFault? leaf root now).isNone with
  | some root => .ok root
  | none =>
    .error ((named.getLast?.bind (rootFault? leaf · now)).getD (.unknownAuthority leaf.issuer))

/-- The root that issued a certificate, if the certificate is in its validity, comes from a root,
is good for a host and may identify a server; faults are looked for in that order. -/
def verify (pool : TrustPool) (leaf : Certificate) (host : String) (now : Instant) :
    Except ChainFault Certificate := do
  if !leaf.isValidAt now then
    throw (.outsideValidity leaf.subject now leaf.notBefore leaf.notAfter)
  let root ← pool.findIssuer leaf now
  if !leaf.isGoodFor host then throw (.wrongHost leaf.san host)
  if !leaf.allowsServerAuth then throw (.wrongUsage leaf.extendedKeyUsages)
  return root

end TrustPool

end CertRotation
