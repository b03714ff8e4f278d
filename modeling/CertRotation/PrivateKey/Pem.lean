import CertRotation.Pem
import CertRotation.PrivateKey.Document

namespace CertRotation.PrivateKey

def sec1Label : String := "EC PRIVATE KEY"

def pkcs1Label : String := "RSA PRIVATE KEY"

def pkcs8Label : String := "PRIVATE KEY"

def encodePem : PrivateKey → Except Failure String
  | ecdsaP256 key => .ok (Pem.render ⟨sec1Label, key.sec1⟩)
  | rsa key =>
    match key.pkcs1? with
    | some document => .ok (Pem.render ⟨pkcs1Label, document⟩)
    | none => .error (.parse .keyForm)

/-- The key of a block; `none` for a block of another kind. -/
def ofBlock? (block : Pem.Block) : Option (Except Failure PrivateKey) :=
  let orElse (key : Option PrivateKey) (fault : ParseFault) : Except Failure PrivateKey :=
    match key with
    | some key => .ok key
    | none => .error (.parse fault)
  if block.label = sec1Label then
    some (orElse ((P256.SecretKey.ofSec1? block.contents).map ecdsaP256) .ecKey)
  else if block.label = pkcs1Label then
    some (orElse ((Rsa.SecretKey.ofPkcs1? block.contents).map rsa) .rsaKey)
  else if block.label = pkcs8Label then some (orElse (ofPkcs8? block.contents) .pkcs8Key)
  else none

def decodePem (text : Octets) : Except Failure PrivateKey :=
  match Pem.parse text with
  | .error _ => .error (.parse .malformedPem)
  | .ok blocks => (blocks.findSome? ofBlock?).getD (.error (.parse .noPrivateKey))

end CertRotation.PrivateKey
