import CertRotation.Json.Number
import CertRotation.Octets

namespace CertRotation

def JsonNumber.text (n : JsonNumber) : List Char :=
  (if n.negative then ['-'] else []) ++ n.integer ++
    (match n.fraction with
      | none => []
      | some digits => '.' :: digits) ++
    (match n.exponent with
      | none => []
      | some (negative, digits) => 'e' :: ((if negative then ['-'] else []) ++ digits))

namespace Json

def escape (c : Char) : List Char :=
  match c with
  | '"' => ['\\', '"']
  | '\\' => ['\\', '\\']
  | '\x08' => ['\\', 'b']
  | '\x0c' => ['\\', 'f']
  | '\n' => ['\\', 'n']
  | '\r' => ['\\', 'r']
  | '\t' => ['\\', 't']
  | c =>
    if c < ' ' then
      ['\\', 'u', '0', '0', Octets.hexDigit (c.toNat / 16), Octets.hexDigit (c.toNat % 16)]
    else [c]

def quote (s : String) : List Char :=
  '"' :: s.toList.flatMap escape ++ ['"']

mutual

def compact : Json → List Char
  | null => ['n', 'u', 'l', 'l']
  | bool value => if value then ['t', 'r', 'u', 'e'] else ['f', 'a', 'l', 's', 'e']
  | number value => value.text
  | str value => quote (value.getD "")
  | array items => '[' :: compactItems items
  | object members => '\x7b' :: compactMembers members

/-- The rest of an array that has been opened. -/
def compactItems : List Json → List Char
  | [] => [']']
  | [item] => compact item ++ [']']
  | item :: items => compact item ++ ',' :: compactItems items

/-- The rest of an object that has been opened. -/
def compactMembers : List (Option String × Json) → List Char
  | [] => ['\x7d']
  | [(name, value)] => quote (name.getD "") ++ ':' :: compact value ++ ['\x7d']
  | (name, value) :: members =>
    quote (name.getD "") ++ ':' :: compact value ++ ',' :: compactMembers members

end

/-- A line end and the indentation of a depth. -/
def newLine (depth : Nat) : List Char := '\n' :: List.replicate (2 * depth) ' '

mutual

def indentedAt (depth : Nat) : Json → List Char
  | array [] => ['[', ']']
  | array items => '[' :: indentedItems (depth + 1) items ++ newLine depth ++ [']']
  | object [] => ['\x7b', '\x7d']
  | object members => '\x7b' :: indentedMembers (depth + 1) members ++ newLine depth ++ ['\x7d']
  | null => compact null
  | bool value => compact (bool value)
  | number value => compact (number value)
  | str value => compact (str value)

/-- The items of an array, each on a line of its own. -/
def indentedItems (depth : Nat) : List Json → List Char
  | [] => []
  | [item] => newLine depth ++ indentedAt depth item
  | item :: items => newLine depth ++ indentedAt depth item ++ ',' :: indentedItems depth items

/-- The members of an object, each on a line of its own. -/
def indentedMembers (depth : Nat) : List (Option String × Json) → List Char
  | [] => []
  | [(name, value)] =>
    newLine depth ++ quote (name.getD "") ++ ':' :: ' ' :: indentedAt depth value
  | (name, value) :: members =>
    newLine depth ++ quote (name.getD "") ++ ':' :: ' ' :: indentedAt depth value ++
      ',' :: indentedMembers depth members

end

def compactText (value : Json) : String := String.ofList (compact value)

/-- The indented text, two spaces a level. -/
def indentedText (value : Json) : String := String.ofList (indentedAt 0 value)

end Json

end CertRotation
