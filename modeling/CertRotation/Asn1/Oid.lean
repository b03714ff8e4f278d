import CertRotation.Asn1.Element

namespace CertRotation.Asn1

/-- An object identifier by its arcs. -/
abbrev Oid := List Nat

namespace Oid

/-- The digits of `n` in base 128, every one but the last with its high bit set. -/
def base128 (n : Nat) : Octets :=
  go (n.log2 / 7) n
where
  go : Nat → Nat → Octets
    | 0, n => [UInt8.ofNat (n % 128)]
    | k + 1, n => UInt8.ofNat (128 + n / Nat.pow 128 (k + 1) % 128) :: go k n

/-- The contents octets: the first two arcs share one number. -/
def contents : Oid → Octets
  | first :: second :: rest => base128 (first * 40 + second) ++ rest.flatMap base128
  | _ => []

def text (oid : Oid) : String :=
  ".".intercalate (oid.map toString)

def encode (oid : Oid) : Octets := Asn1.encode 0x06 oid.contents

def commonName : Oid := [2, 5, 4, 3]

def organizationName : Oid := [2, 5, 4, 10]

def subjectKeyIdentifier : Oid := [2, 5, 29, 14]

def keyUsage : Oid := [2, 5, 29, 15]

def subjectAltName : Oid := [2, 5, 29, 17]

def basicConstraints : Oid := [2, 5, 29, 19]

def extKeyUsage : Oid := [2, 5, 29, 37]

def rsaEncryption : Oid := [1, 2, 840, 113549, 1, 1, 1]

def sha1WithRsa : Oid := [1, 2, 840, 113549, 1, 1, 5]

/-- RSA signatures with SHA-1, by the older name. -/
def oiwSha1WithRsa : Oid := [1, 3, 14, 3, 2, 29]

def rsassaPss : Oid := [1, 2, 840, 113549, 1, 1, 10]

def sha256WithRsa : Oid := [1, 2, 840, 113549, 1, 1, 11]

def sha384WithRsa : Oid := [1, 2, 840, 113549, 1, 1, 12]

def sha512WithRsa : Oid := [1, 2, 840, 113549, 1, 1, 13]

def ecPublicKey : Oid := [1, 2, 840, 10045, 2, 1]

def prime256v1 : Oid := [1, 2, 840, 10045, 3, 1, 7]

def secp384r1 : Oid := [1, 3, 132, 0, 34]

def ecdsaWithSha256 : Oid := [1, 2, 840, 10045, 4, 3, 2]

def ecdsaWithSha384 : Oid := [1, 2, 840, 10045, 4, 3, 3]

def ed25519 : Oid := [1, 3, 101, 112]

end Oid

end CertRotation.Asn1
