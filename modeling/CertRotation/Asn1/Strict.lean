import CertRotation.Asn1.Tolerant

/-!
A strict reader: lengths and numbers in their shortest form, known tags only, and nothing left over
inside an element.
-/

namespace CertRotation.Asn1.Strict

/-- Whether a tag octet is one of the known tags. -/
def isTag (tag : UInt8) : Bool :=
  [0x01, 0x02, 0x03, 0x04, 0x05, 0x06, 0x09, 0x0a, 0x0c, 0x12, 0x13, 0x14, 0x15, 0x16, 0x17, 0x18,
    0x1a, 0x1e, 0x30, 0x31].contains tag || (0x40 ≤ tag && tag % 32 != 31)

/-- Lengths are below this limit. -/
def lengthLimit : Nat := Nat.pow 2 28

/-- A length in its shortest form. -/
def length : Reader Nat
  | [] => none
  | first :: rest =>
    let count := first.toNat - 128
    let digits := rest.take count
    let n := if first < 128 then first.toNat else Octets.value digits
    if n < lengthLimit ∧ encodeLength n = first :: digits then some (n, rest.drop count) else none

/-- An element: its tag and its contents. -/
def element : Reader (UInt8 × Octets)
  | [] => none
  | tag :: rest => do
    let (length, rest) ← length rest
    if !isTag tag ∨ rest.length < length then none
    else return ((tag, rest.take length), rest.drop length)

/-- The contents of an element with the given tag. -/
def tagged (tag : UInt8) : Reader Octets := do
  let (tag', contents) ← element
  if tag' = tag then return contents else failure

/-- What `body` reads, if it reads the whole contents. -/
def whole {α : Type} (body : Reader α) (contents : Octets) : Option α :=
  match body contents with
  | some (value, []) => some value
  | _ => none

/-- A SEQUENCE that consists of what `body` reads. -/
def sequence {α : Type} (body : Reader α) : Reader α := do
  let contents ← tagged 0x30
  whole body contents

/-- The value of the shortest contents of a non-negative INTEGER. -/
def naturalContents? (contents : Octets) : Option Nat :=
  let n := Octets.value contents
  if Asn1.naturalContents n = contents then some n else none

def natural : Reader Nat := do
  let contents ← tagged 0x02
  naturalContents? contents

def octetString : Reader Octets := tagged 0x04

/-- The octets of BIT STRING contents that has no unused bits. -/
def bits? : Octets → Option Octets
  | 0 :: octets => some octets
  | _ => none

/-- A BIT STRING without unused bits. -/
def bitString : Reader Octets := do
  let contents ← tagged 0x03
  bits? contents

/-- Whether the numbers of an object identifier end where they should; `count` octets of the
current one have been read. -/
def arcsEnd : (count : Nat) → Octets → Bool
  | count, [] => count == 0
  | count, byte :: rest =>
    if count ≥ 5 ∧ byte ≥ 16 then false
    else arcsEnd (if byte < 128 then 0 else count + 1) rest

/-- An OBJECT IDENTIFIER, by its contents. -/
def oid : Reader Octets := do
  let contents ← tagged 0x06
  let first ← contents.head?
  if 3 ≤ contents.length ∧ contents.length ≤ 39 ∧ first < 120 ∧ arcsEnd 0 (contents.drop 1) then
    return contents
  else failure

/-- The element with the context-specific tag `number`, if one comes before those with higher
numbers; elements with lower numbers are passed over. -/
def field? (number : Nat) : (budget : Nat) → Octets → Option (Option (UInt8 × Octets) × Octets)
  | 0, text => some (none, text)
  | budget + 1, text =>
    match text with
    | [] => some (none, [])
    | tag :: _ =>
      if !isTag tag then none
      else if tag < 0x80 ∨ 0xc0 ≤ tag ∨ tag.toNat % 32 > number then some (none, text)
      else do
        let (e, rest) ← element text
        if tag.toNat % 32 = number then return (some e, rest)
        else field? number budget rest

/-- The contents of the optional element with the constructed context-specific tag `number`. -/
def explicit? (number : Nat) : Reader (Option Octets) := fun text => do
  let (found, rest) ← field? number text.length text
  match found with
  | none => return (none, rest)
  | some (tag, contents) => if tag ≥ 0xa0 then return (some contents, rest) else none

/-- The contents of the optional element with the primitive context-specific tag `number`. -/
def implicit? (number : Nat) : Reader (Option Octets) := fun text => do
  let (found, rest) ← field? number text.length text
  match found with
  | none => return (none, rest)
  | some (tag, contents) => if tag < 0xa0 then return (some contents, rest) else none

end CertRotation.Asn1.Strict
