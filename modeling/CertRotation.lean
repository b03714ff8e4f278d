import CertRotation.JsonForm.Certificate
import CertRotation.Main
import CertRotation.Proofs.Rotation.Cache
import CertRotation.Proofs.Rotation.Cancellation
import CertRotation.Proofs.Rotation.Isolation
import CertRotation.Proofs.Rotation.Pending
import CertRotation.Proofs.Rotation.Punctuality
import CertRotation.Proofs.Rotation.Restart
import CertRotation.Proofs.Rotation.TrustMaterial
import CertRotation.Proofs.Store.Interleaving
import CertRotation.Proofs.Time.Nanoseconds
import CertRotation.Proofs.X509.WholeSeconds
import CertRotation.Proofs.Settings.Saved
import CertRotation.Proofs.Trust.ServiceHosts
import CertRotation.Proofs.PrivateKey.Containers
import CertRotation.Proofs.Pem.Pieces
import CertRotation.Proofs.IpAddress.Text
import CertRotation.Proofs.Json.Forms
import CertRotation.Proofs.Store.Contents
import CertRotation.Proofs.Files.Straight
import CertRotation.Proofs.Files.Frame
import CertRotation.Proofs.Store.Confinement
import CertRotation.Proofs.Issuance.Record
import CertRotation.Proofs.Store.Absence
import CertRotation.Proofs.Files.Unused
import CertRotation.Proofs.Files.Making
import CertRotation.Proofs.Store.Outcome
import CertRotation.Proofs.Store.Visibility
import CertRotation.Proofs.Store.Failures
import CertRotation.Proofs.Trust.Labels
import CertRotation.Proofs.Trust.Bundles
import CertRotation.Proofs.Issuance.LeafRecord
import CertRotation.Proofs.Issuance.Issuer
import CertRotation.Proofs.Rotation.WholeCalendar
import CertRotation.Proofs.Issuance.KeyPairs
import CertRotation.Proofs.Trust.Readers
import CertRotation.Proofs.Settings.DnsLabels
import CertRotation.Proofs.Certificate.Front
import CertRotation.Proofs.Certificate.Validity
import CertRotation.Proofs.Certificate.Serial
