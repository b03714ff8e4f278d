namespace CertRotation

/-- A string of octets, first octet first. -/
abbrev Octets := List UInt8

namespace Octets

/-- The unsigned value, most significant octet first. -/
def value (bytes : Octets) : Nat :=
  bytes.foldl (fun acc byte => acc * 256 + byte.toNat) 0

/-- The last `width` base-256 digits of `n`, most significant first. -/
def ofNat : (width n : Nat) → Octets
  | 0, _ => []
  | width + 1, n => UInt8.ofNat (n / Nat.pow 256 width) :: ofNat width n

/-- The number of octets `n` needs; zero needs none. -/
def width (n : Nat) : Nat :=
  if n = 0 then 0 else n.log2 / 8 + 1

/-- The shortest big-endian form; zero is the empty string. -/
def minimal (n : Nat) : Octets :=
  ofNat (width n) n

def stripZeros (bytes : Octets) : Octets :=
  bytes.dropWhile (· == 0)

/-- The lower-case hexadecimal digit of `n`, for `n < 16`. -/
def hexDigit (n : Nat) : Char :=
  if n < 10 then Char.ofNat (48 + n) else Char.ofNat (87 + n)

/-- Two lower-case hexadecimal digits per octet. -/
def hex (bytes : Octets) : String :=
  String.ofList (bytes.flatMap fun byte => [hexDigit (byte.toNat / 16), hexDigit (byte.toNat % 16)])

/-- The value of a hexadecimal digit in either case. -/
def hexValue? (c : Char) : Option Nat :=
  if '0' ≤ c ∧ c ≤ '9' then some (c.toNat - 48)
  else if 'a' ≤ c ∧ c ≤ 'f' then some (c.toNat - 87)
  else if 'A' ≤ c ∧ c ≤ 'F' then some (c.toNat - 55)
  else none

/-- Reads pairs of hexadecimal digits; a digit left alone is an error. -/
def ofHex? : List Char → Option Octets
  | [] => some []
  | [_] => none
  | hi :: lo :: rest => do
    let high ← hexValue? hi
    let low ← hexValue? lo
    let bytes ← ofHex? rest
    return UInt8.ofNat (high * 16 + low) :: bytes

end Octets

namespace Utf8

def encode (text : String) : Octets :=
  text.toUTF8.data.toList

/-- The text whose UTF-8 form the octets are, if there is one. -/
def decode? (bytes : Octets) : Option String :=
  String.fromUTF8? ⟨bytes.toArray⟩

end Utf8

end CertRotation
