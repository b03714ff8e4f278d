import CertRotation.Asn1.Element

/-!
A tolerant reader of definite-length elements. Lengths may be longer than necessary, what follows
the wanted elements of a SEQUENCE is passed over, and tags are told apart by their number.
-/

namespace CertRotation.Asn1

/-- Reads something off the front of a text. -/
abbrev Reader := StateT Octets Option

namespace Tolerant

/-- The largest number of octets a long tag number may take. -/
def maxTagOctets : Nat := 5

/-- The rest of a long tag number, 32 bits of it, in at most `budget` octets. -/
def tagNumber : (budget acc : Nat) → Reader Nat
  | 0, _, _ => none
  | _ + 1, _, [] => none
  | budget + 1, acc, byte :: rest =>
    let acc := (acc * 128 + byte.toNat % 128) % Nat.pow 2 32
    if byte < 128 then some (acc, rest) else tagNumber budget acc rest

/-- A definite length below `2 ^ 64`. -/
def length : Reader Nat
  | [] => none
  | first :: rest =>
    if first < 128 then some (first.toNat, rest)
    else
      let count := first.toNat - 128
      let digits := rest.take count
      if count = 0 ∨ count = 127 ∨ rest.length < count ∨ Octets.value digits ≥ Nat.pow 2 64 then none
      else some (Octets.value digits, rest.drop count)

/-- The class that the two high bits of a tag octet name. -/
def tagClass (first : UInt8) : TagClass :=
  if first < 64 then .universal
  else if first < 128 then .application
  else if first < 192 then .contextSpecific
  else .privateUse

/-- A tag and a length: the element they announce, still without contents, and the length. -/
def header : Reader (Element × Nat)
  | [] => none
  | first :: rest => do
    let low := first.toNat % 32
    let (number, rest) ← if low = 31 then tagNumber maxTagOctets 0 rest else some (low, rest)
    let (length, rest) ← length rest
    return ((⟨tagClass first, first.toNat / 32 % 2 = 1, number, []⟩, length), rest)

def element : Reader Element := fun text => do
  let ((announced, length), rest) ← header text
  if rest.length < length then none
  else some ({ announced with contents := rest.take length }, rest.drop length)

/-- The contents of an element whose tag has the given number. -/
def tagged (number : Nat) : Reader Octets := do
  let e ← element
  if e.number = number then return e.contents else failure

/-- The contents of a primitive element whose tag has the given number. -/
def primitive (number : Nat) : Reader Octets := do
  let e ← element
  if e.number = number ∧ e.constructed = false then return e.contents else failure

/-- Runs a reader on contents and passes over what it leaves. -/
def within {α : Type} (body : Reader α) (contents : Octets) : Option α :=
  (body contents).map (·.1)

/-- A SEQUENCE whose contents begin with what `body` reads. -/
def sequence {α : Type} (body : Reader α) : Reader α := do
  let contents ← tagged 16
  within body contents

/-- What `body` reads in the contents of the element with a context-specific tag, if that is the
element at the front. -/
def optional {α : Type} (number : Nat) (body : Octets → Option α) : Reader (Option α) := fun text =>
  if text.isEmpty then some (none, text)
  else do
    let (e, rest) ← element text
    if e.number = number then
      if e.tagClass = .contextSpecific then return (some (← body e.contents), rest) else none
    else return (none, text)

/-- As many items as `read` finds, and the text it stops at; at most `budget` items. -/
def many {α : Type} (read : Reader α) : (budget : Nat) → Octets → List α × Octets
  | 0, text => ([], text)
  | budget + 1, text =>
    match read text with
    | none => ([], text)
    | some (item, rest) =>
      let (items, rest) := many read budget rest
      (item :: items, rest)

/-- As many items as `read` finds; what follows them is passed over. -/
def leading {α : Type} (read : Reader α) (contents : Octets) : List α :=
  (many read contents.length contents).1

/-- Items that make up the whole contents. -/
def every? {α : Type} (read : Reader α) (contents : Octets) : Option (List α) :=
  match many read contents.length contents with
  | (items, []) => some items
  | _ => none

/-- The contents of a primitive element that stands where an OBJECT IDENTIFIER belongs. -/
def oid : Reader Octets := do
  let e ← element
  if e.constructed then failure else return e.contents

/-- The octets of a BIT STRING whose unused bits are zero. -/
def bits? (contents : Octets) : Option Octets :=
  match contents with
  | [] => none
  | unused :: octets =>
    match octets.getLast? with
    | none => if unused = 0 then some [] else none
    | some last =>
      if unused ≤ 8 ∧ last.toNat % Nat.pow 2 unused.toNat = 0 then some octets else none

/-- Whether INTEGER contents have no octet that repeats the sign: they do not begin with two zeros
or with eight ones before another one. -/
def isPlainInteger : Octets → Bool
  | [] => false
  | [_] => true
  | first :: second :: _ => !(first == 0 && second == 0) && !(first == 255 && second ≥ 128)

/-- The contents of an INTEGER of any length. -/
def integer : Reader Octets := do
  let contents ← primitive 2
  if isPlainInteger contents then return contents else failure

/-- The value of INTEGER contents that are not negative and have at most 32 bits. -/
def word32? (contents : Octets) : Option Nat := do
  let first ← contents.head?
  if first ≥ 128 ∨ (Octets.stripZeros contents).length > 4 then none
  else return Octets.value contents

/-- The value of such an INTEGER at the front of a text. -/
def leadingWord32? (text : Octets) : Option Nat := do
  word32? (← within (primitive 2) text)

def bitString : Reader Octets := do
  let contents ← primitive 3
  bits? contents

end Tolerant

end CertRotation.Asn1
