import CertRotation.Rotation.Surroundings

namespace CertRotation

open ManagerRequest (ask)

/-- What one generation consists of: the key and the certificate that are served, the bundle that
clients trust, and the authority in it. -/
structure Generation where
  material : TlsMaterial
  bundle : Octets
  ca : Certificate

namespace Generation

/-- Makes a generation for a webhook, valid from now, and checks that clients would accept it. -/
def mint (id : WebhookIdentity) (organization : List String) (duration : Duration)
    (now : Instant) : ExceptT Failure Work Generation := do
  let caKey ← ExceptT.mk (ask .newKey)
  let ca ← ExceptT.mk (.done (Issuance.issueAuthority (id.caConfig organization) caKey duration now))
  let key ← ExceptT.mk (ask .newKey)
  let serial ← ExceptT.lift (ask .newSerial)
  let leaf ← ExceptT.mk
    (.done (Issuance.issueLeaf (id.leafConfig organization) key ca caKey duration now serial))
  let keyPem ← ExceptT.mk (.done key.encodePem)
  let material : TlsMaterial := ⟨Utf8.encode keyPem, Utf8.encode leaf.pem⟩
  let bundle := Utf8.encode ca.pem
  ExceptT.mk (.done (material.verify bundle now))
  return ⟨material, bundle, ca⟩

end Generation

end CertRotation
