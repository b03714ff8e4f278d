import CertRotation.PrivateKey.Pem
import CertRotation.Trust.KeyPair
import CertRotation.Trust.Pool

namespace CertRotation

/-- The files of a private key and of a certificate chain, whose first certificate is the key's. -/
structure TlsMaterial where
  keyPem : Octets
  certPem : Octets
deriving DecidableEq, Repr

namespace TlsMaterial

/-- The text in logs, which hides the key and shows the length of the chain. -/
def redacted (material : TlsMaterial) : String :=
  "TlsMaterial \x7b key_pem: " ++ Text.quoted "[REDACTED]" ++ ", cert_pem_len: " ++
    toString material.certPem.length ++ " \x7d"

/-- The first certificate and the root behind it. The key must be the certificate's, and the
certificate good for its own first host name at the given time. -/
def verifyChain (material : TlsMaterial) (bundle : Octets) (now : Instant) :
    Except Failure (Certificate × Certificate) := do
  let key ← PrivateKey.decodePem material.keyPem
  let certs ← Certificate.decodePem material.certPem
  let pool ← TrustPool.ofPem bundle
  let leaf :: _ := certs | throw (.parse .noCertificate)
  let host :: _ := leaf.dnsNames | throw (.chainVerification (.noDnsName leaf.subject))
  let root ← (pool.verify leaf host now).mapError .chainVerification
  leaf.checkKeyPair key
  return (leaf, root)

/-- Checks that the material would be accepted under a bundle at a time. -/
def verify (material : TlsMaterial) (bundle : Octets) (now : Instant) : Except Failure Unit :=
  (material.verifyChain bundle now).map fun _ => ()

end TlsMaterial

end CertRotation
