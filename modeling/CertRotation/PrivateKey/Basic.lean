import CertRotation.Crypto.P256
import CertRotation.Crypto.Rsa
import CertRotation.Failure

namespace CertRotation

/-- A private key. -/
inductive PrivateKey where
  | rsa (key : Rsa.SecretKey)
  | ecdsaP256 (key : P256.SecretKey)
deriving DecidableEq

namespace PrivateKey

def algorithm : PrivateKey → KeyAlgorithm
  | rsa _ => .rsa
  | ecdsaP256 _ => .ecdsaP256

/-- Signs the SHA-256 digest of a message. The same key gives the same signature every time. -/
def sign : PrivateKey → Octets → Octets
  | rsa key, message => Rsa.sign .sha256 key message
  | ecdsaP256 key, message => (P256.sign key message).encode

/-- The text in logs, which shows nothing of the key but its algorithm. -/
def redacted (key : PrivateKey) : String :=
  "PrivateKey \x7b algorithm: " ++ key.algorithm.name ++ ", key: " ++
    Text.quoted "[REDACTED]" ++ " \x7d"

end PrivateKey

end CertRotation
