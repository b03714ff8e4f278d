namespace CertRotation

/-- A number as it is written. -/
structure JsonNumber where
  negative : Bool
  integer : List Char
  fraction : Option (List Char)
  exponent : Option (Bool × List Char)
deriving DecidableEq, Repr

/-- A JSON value. A text is `none` when one of its escapes stands for half a character. -/
inductive Json where
  | null
  | bool (value : Bool)
  | number (value : JsonNumber)
  | str (value : Option String)
  | array (items : List Json)
  | object (members : List (Option String × Json))

namespace Json

def ofString (s : String) : Json := str (some s)

def ofNat (n : Nat) : Json := number ⟨false, Nat.toDigits 10 n, none, none⟩

def record (members : List (String × Json)) : Json :=
  object (members.map fun (name, value) => (some name, value))

def texts (items : List String) : Json := array (items.map ofString)

end Json

end CertRotation
