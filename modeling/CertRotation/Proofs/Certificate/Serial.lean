import CertRotation.Proofs.Certificate.Front
import CertRotation.Proofs.Issuance.LeafRecord

namespace CertRotation

open Asn1

namespace Certificate

variable {cert : Certificate} {der : Octets} {n : Nat}

end Certificate

namespace Sample

end Sample

namespace Certificate

variable {cert : Certificate} {der : Octets}

end Certificate

end CertRotation
