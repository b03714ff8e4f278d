import CertRotation.Octets

namespace CertRotation.Asn1

/-- The class of a tag. -/
inductive TagClass where
  | universal
  | application
  | contextSpecific
  | privateUse
deriving DecidableEq, Repr

/-- An element as it was read: its tag and its contents. -/
structure Element where
  tagClass : TagClass
  constructed : Bool
  number : Nat
  contents : Octets
deriving DecidableEq, Repr

/-- A length in its shortest form. No form has more than 126 digits: a longer length begins with
an octet that readers refuse. -/
def encodeLength (n : Nat) : Octets :=
  if n < 128 then [UInt8.ofNat n]
  else
    let digits := Octets.minimal n
    UInt8.ofNat (128 + min digits.length 127) :: digits

/-- Writes an element with a one-octet tag. -/
def encode (tag : UInt8) (contents : Octets) : Octets :=
  tag :: (encodeLength contents.length ++ contents)

/-- A SEQUENCE of elements that are already written. -/
def sequence (elements : List Octets) : Octets := encode 0x30 elements.flatten

/-- A SET of elements that are already written. -/
def setOf (elements : List Octets) : Octets := encode 0x31 elements.flatten

/-- The contents of a non-negative INTEGER: no octet more than the sign bit needs. -/
def naturalContents (n : Nat) : Octets :=
  let digits := Octets.minimal n
  match digits with
  | [] => [0]
  | first :: _ => if first ≥ 128 then 0 :: digits else digits

def natural (n : Nat) : Octets := encode 0x02 (naturalContents n)

def booleanTrue : Octets := encode 0x01 [0xff]

def null : Octets := encode 0x05 []

def octetString (contents : Octets) : Octets := encode 0x04 contents

/-- A BIT STRING of whole octets. -/
def bitString (contents : Octets) : Octets := encode 0x03 (0 :: contents)

/-- An element with the constructed context-specific tag `number`, for `number < 31`. -/
def explicit (number : Nat) (contents : Octets) : Octets :=
  encode (UInt8.ofNat (0xa0 + number)) contents

/-- An element with the primitive context-specific tag `number`, for `number < 31`. -/
def implicit (number : Nat) (contents : Octets) : Octets :=
  encode (UInt8.ofNat (0x80 + number)) contents

end CertRotation.Asn1
