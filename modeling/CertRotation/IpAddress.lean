import CertRotation.Octets

/-!
IP addresses: their octets, their text, and reading the text back. A version 6 address is written
with lower-case groups and its longest run of two or more zero groups left out, the first of
several; only addresses that map a version 4 address end in dotted form.
-/

namespace CertRotation

/-- A version 4 address as four octets, or a version 6 address as eight groups. -/
inductive IpAddress where
  | v4 (octets : Vector UInt8 4)
  | v6 (groups : Vector UInt16 8)
deriving DecidableEq, Repr

namespace IpAddress

/-- The group with the given high and low octet. -/
def group (high low : UInt8) : UInt16 := high.toUInt16 * 256 + low.toUInt16

/-- The address in network order: 4 or 16 octets. -/
def octets : IpAddress → Octets
  | v4 octets => octets.toList
  | v6 groups => groups.toList.flatMap fun g => [(g / 256).toUInt8, g.toUInt8]

/-- The address that 4 or 16 octets hold. -/
def ofOctets? : Octets → Option IpAddress
  | [a, b, c, d] => some (v4 #v[a, b, c, d])
  | [a, b, c, d, e, f, g, h, i, j, k, l, m, n, o, p] =>
    some (v6 #v[group a b, group c d, group e f, group g h, group i j, group k l, group m n,
      group o p])
  | _ => none

/-- A number in a radix up to 16, with lower-case digits. -/
def digits (radix n : Nat) : List Char :=
  Nat.toDigits radix n

def dotted (octets : List UInt8) : List Char :=
  ['.'].intercalate (octets.map fun octet => digits 10 octet.toNat)

def colons (groups : List UInt16) : List Char :=
  [':'].intercalate (groups.map fun g => digits 16 g.toNat)

/-- The number of zero groups at each position, from there on. -/
def zeroRuns : List UInt16 → List Nat
  | [] => []
  | g :: rest =>
    let runs := zeroRuns rest
    (if g = 0 then runs.headD 0 + 1 else 0) :: runs

/-- The start and length of the longest run of zero groups, the first of several. -/
def longestRun (groups : List UInt16) : Nat × Nat :=
  let runs := zeroRuns groups
  let longest := runs.foldl max 0
  (runs.idxOf longest, longest)

/-- The text of a version 6 address. -/
def textV6 (groups : List UInt16) : List Char :=
  match groups with
  | [0, 0, 0, 0, 0, 0xffff, g, h] =>
    "::ffff:".toList ++
      dotted [(g / 256).toUInt8, g.toUInt8, (h / 256).toUInt8, h.toUInt8]
  | _ =>
    let (start, length) := longestRun groups
    if length > 1 then
      colons (groups.take start) ++ [':', ':'] ++ colons (groups.drop (start + length))
    else colons groups

def text : IpAddress → List Char
  | v4 octets => dotted octets.toList
  | v6 groups => textV6 groups.toList

/-- The value of a digit in a radix up to 16, in either case. -/
def digitValue? (radix : Nat) (c : Char) : Option Nat :=
  (Octets.hexValue? c).filter (· < radix)

/-- Reads a number of at most `maxDigits` digits; leading zeros only where they are allowed. -/
def readNumber? (radix maxDigits : Nat) (leadingZeros : Bool) (text : List Char) :
    Option (Nat × List Char) :=
  let run := text.takeWhile fun c => (digitValue? radix c).isSome
  if run = [] ∨ run.length > maxDigits ∨ (!leadingZeros ∧ run.head? = some '0' ∧ run.length > 1)
  then none
  else some (run.foldl (fun acc c => acc * radix + (digitValue? radix c).getD 0) 0,
    text.drop run.length)

/-- Reads a separator, except before the first item. -/
def readSeparator? (separator : Char) (isFirst : Bool) (text : List Char) : Option (List Char) :=
  match isFirst, text with
  | true, _ => some text
  | false, c :: rest => if c = separator then some rest else none
  | false, [] => none

def readDotted? : (count : Nat) → (isFirst : Bool) → List Char → Option (List UInt8 × List Char)
  | 0, _, text => some ([], text)
  | count + 1, isFirst, text => do
    let text ← readSeparator? '.' isFirst text
    let (n, text) ← readNumber? 10 3 false text
    if n > 255 then none
    else
      let (octets, text) ← readDotted? count false text
      return (UInt8.ofNat n :: octets, text)

/-- Reads up to `limit` groups as far as they go; the last two may be written as a dotted version
4 address, and the flag tells whether they were. -/
def readGroups : (limit : Nat) → (isFirst : Bool) → List Char → List UInt16 × Bool × List Char
  | 0, _, text => ([], false, text)
  | limit + 1, isFirst, text =>
    let embedded := if limit = 0 then none else (readSeparator? ':' isFirst text).bind (readDotted? 4 true)
    match embedded with
    | some ([a, b, c, d], rest) => ([group a b, group c d], true, rest)
    | _ =>
      match (readSeparator? ':' isFirst text).bind (readNumber? 16 4 true) with
      | none => ([], false, text)
      | some (g, rest) =>
        let (groups, dotted, rest) := readGroups limit false rest
        (UInt16.ofNat g :: groups, dotted, rest)

/-- Reads the eight groups of a version 6 address. A gap stands for one or more zero groups, and a
dotted part only at the end. -/
def readV6? (text : List Char) : Option (List UInt16 × List Char) :=
  let (front, frontDotted, rest) := readGroups 8 true text
  if front.length = 8 then some (front, rest)
  else if frontDotted then none
  else
    match rest with
    | ':' :: ':' :: rest =>
      let (back, _, rest) := readGroups (7 - front.length) true rest
      some (front ++ List.replicate (8 - front.length - back.length) 0 ++ back, rest)
    | _ => none

/-- Reads the text of an address, all of it. -/
def parse? (text : List Char) : Option IpAddress :=
  match readDotted? 4 true text with
  | some ([a, b, c, d], []) => some (v4 #v[a, b, c, d])
  | some _ => none
  | none =>
    match readV6? text with
    | some ([a, b, c, d, e, f, g, h], []) => some (v6 #v[a, b, c, d, e, f, g, h])
    | _ => none

end IpAddress

end CertRotation
