import CertRotation.Json.Value
import CertRotation.Octets
import CertRotation.Text.Basic

namespace CertRotation.Json

def skipSpace (text : List Char) : List Char :=
  text.dropWhile fun c => c == ' ' || c == '\n' || c == '\t' || c == '\r'

def hex4? (a b c d : Char) : Option Nat := do
  return ((← Octets.hexValue? a) * 16 + (← Octets.hexValue? b)) * 256 +
    (← Octets.hexValue? c) * 16 + (← Octets.hexValue? d)

def escaped? : Char → Option Char
  | '"' => some '"'
  | '\\' => some '\\'
  | '/' => some '/'
  | 'b' => some '\x08'
  | 'f' => some '\x0c'
  | 'n' => some '\n'
  | 'r' => some '\r'
  | 't' => some '\t'
  | _ => none

/-- Puts a character before a text that may have failed to denote characters. -/
def prepend (c : Char) : Option (List Char) × List Char → Option (List Char) × List Char
  | (text, rest) => (text.map (c :: ·), rest)

/-- Reads the characters of a text up to the closing quote. An escape that stands for half a
character leaves no text, but what follows it is still checked. -/
def readText? : List Char → Option (Option (List Char) × List Char)
  | [] => none
  | '"' :: rest => some (some [], rest)
  | '\\' :: 'u' :: a :: b :: c :: d :: rest => do
    let unit ← hex4? a b c d
    if unit < 0xD800 ∨ 0xDFFF < unit then
      return prepend (Char.ofNat unit) (← readText? rest)
    else
      let whole : Option (Option (List Char) × List Char) :=
        match rest with
        | '\\' :: 'u' :: e :: f :: g :: h :: rest =>
          match hex4? e f g h with
          | none => none
          | some low =>
            if unit ≤ 0xDBFF ∧ 0xDC00 ≤ low ∧ low ≤ 0xDFFF then
              (readText? rest).map
                (prepend (Char.ofNat (0x10000 + (unit - 0xD800) * 0x400 + (low - 0xDC00))))
            else none
        | _ => none
      match whole with
      | some result => return result
      | none => return (none, (← readText? rest).2)
  | '\\' :: c :: rest => do
    let c ← escaped? c
    return prepend c (← readText? rest)
  | c :: rest => do
    if c < ' ' ∨ c = '\\' then none
    else return prepend c (← readText? rest)

def readDigits? (text : List Char) : Option (List Char × List Char) :=
  let digits := text.takeWhile Text.isDigit
  if digits = [] then none else some (digits, text.drop digits.length)

/-- Reads a number. A leading zero stands alone. -/
def readNumber? (text : List Char) : Option (JsonNumber × List Char) := do
  let (negative, text) :=
    match text with
    | '-' :: rest => (true, rest)
    | _ => (false, text)
  let (integer, text) ←
    match text with
    | '0' :: rest => some (['0'], rest)
    | _ => readDigits? text
  let (fraction, text) ←
    match text with
    | '.' :: rest => (readDigits? rest).map fun (digits, rest) => (some digits, rest)
    | _ => some (none, text)
  let (exponent, text) ←
    if text.head? = some 'e' ∨ text.head? = some 'E' then
      let rest := text.drop 1
      let signed := rest.head? = some '+' ∨ rest.head? = some '-'
      (readDigits? (if signed then rest.drop 1 else rest)).map fun (digits, after) =>
        (some (rest.head? == some '-', digits), after)
    else some (none, text)
  return (⟨negative, integer, fraction, exponent⟩, text)

def dropWord? : (word text : List Char) → Option (List Char)
  | [], text => some text
  | w :: word, c :: rest => if w = c then dropWord? word rest else none
  | _ :: _, [] => none

mutual

/-- Reads a value; white space in front is skipped. The budget bounds the nesting and the number
of items, and the length of the text is enough of it. -/
def readValue? : (budget : Nat) → List Char → Option (Json × List Char)
  | 0, _ => none
  | budget + 1, text =>
    match skipSpace text with
    | [] => none
    | '"' :: rest => (readText? rest).map fun (value, rest) => (.str (value.map String.ofList), rest)
    | '[' :: rest =>
      match skipSpace rest with
      | ']' :: rest => some (.array [], rest)
      | rest => (readItems? budget rest).map fun (items, rest) => (.array items, rest)
    | '\x7b' :: rest =>
      match skipSpace rest with
      | '\x7d' :: rest => some (.object [], rest)
      | rest => (readMembers? budget rest).map fun (members, rest) => (.object members, rest)
    | 't' :: rest => (dropWord? ['r', 'u', 'e'] rest).map fun rest => (.bool true, rest)
    | 'f' :: rest => (dropWord? ['a', 'l', 's', 'e'] rest).map fun rest => (.bool false, rest)
    | 'n' :: rest => (dropWord? ['u', 'l', 'l'] rest).map fun rest => (.null, rest)
    | text => (readNumber? text).map fun (value, rest) => (.number value, rest)

/-- Reads the items of an array up to its bracket. -/
def readItems? : (budget : Nat) → List Char → Option (List Json × List Char)
  | 0, _ => none
  | budget + 1, text => do
    let (item, rest) ← readValue? budget text
    match skipSpace rest with
    | ']' :: rest => return ([item], rest)
    | ',' :: rest =>
      let (items, rest) ← readItems? budget rest
      return (item :: items, rest)
    | _ => none

/-- Reads the members of an object up to its brace. -/
def readMembers? : (budget : Nat) → List Char → Option (List (Option String × Json) × List Char)
  | 0, _ => none
  | budget + 1, text => do
    match skipSpace text with
    | '"' :: rest =>
      let (name, rest) ← readText? rest
      match skipSpace rest with
      | ':' :: rest =>
        let (value, rest) ← readValue? budget rest
        let member := (name.map String.ofList, value)
        match skipSpace rest with
        | '\x7d' :: rest => return ([member], rest)
        | ',' :: rest =>
          let (members, rest) ← readMembers? budget rest
          return (member :: members, rest)
        | _ => none
      | _ => none
    | _ => none

end

/-- The value that a whole text stands for. -/
def parse? (text : String) : Option Json := do
  let chars := text.toList
  let (value, rest) ← readValue? (chars.length + 1) chars
  if skipSpace rest = [] then return value else none

end CertRotation.Json
