import CertRotation.Asn1.Oid
import CertRotation.Crypto.Digest.Sha1
import CertRotation.Crypto.Digest.Sha256
import CertRotation.Crypto.Digest.Sha512

namespace CertRotation.Digest

/-- A digest algorithm. -/
inductive Algorithm where
  | sha1
  | sha256
  | sha384
  | sha512
deriving DecidableEq, Repr

namespace Algorithm

def digest : Algorithm → Octets → Octets
  | sha1 => Digest.sha1
  | sha256 => Digest.sha256
  | sha384 => Digest.sha384
  | sha512 => Digest.sha512

def oid : Algorithm → Asn1.Oid
  | sha1 => [1, 3, 14, 3, 2, 26]
  | sha256 => [2, 16, 840, 1, 101, 3, 4, 2, 1]
  | sha384 => [2, 16, 840, 1, 101, 3, 4, 2, 2]
  | sha512 => [2, 16, 840, 1, 101, 3, 4, 2, 3]

/-- The digest of a message together with the name of the algorithm. -/
def info (algorithm : Algorithm) (message : Octets) : Octets :=
  Asn1.sequence [Asn1.sequence [algorithm.oid.encode, Asn1.null],
    Asn1.octetString (algorithm.digest message)]

end Algorithm

end CertRotation.Digest
