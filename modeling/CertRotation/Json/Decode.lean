import CertRotation.Json.Number

/-!
Reading domain values out of JSON values.

A record is an object or an array of its fields in order. In an object, members of other names are
passed over, but a field that stands there twice is refused; an array may leave out fields at its
end but has no more items than the record has fields.
-/

namespace CertRotation.Json

/-- The only member of a name, if the name occurs at most once. -/
def member? (members : List (Option String × Json)) (name : String) : Option (Option Json) :=
  match members.filter fun m => m.1 == some name with
  | [] => some none
  | [(_, value)] => some (some value)
  | _ => none

/-- The fields of a record in the order of their names; `none` stands for one that is left out. -/
def fields? (names : List String) : Json → Option (List (Option Json))
  | object members =>
    if members.all (·.1.isSome) then names.mapM (member? members) else none
  | array items =>
    if items.length ≤ names.length then
      some (items.map some ++ List.replicate (names.length - items.length) none)
    else none
  | _ => none

def toText? : Json → Option String
  | str value => value
  | _ => none

def toBool? : Json → Option Bool
  | bool value => some value
  | _ => none

def toWord? : Json → Option Nat
  | number value => value.toWord?
  | _ => none

def toBinary64? : Json → Option Binary64
  | number value => value.toBinary64?
  | _ => none

def toList? {α : Type} (read : Json → Option α) : Json → Option (List α)
  | array items => items.mapM read
  | _ => none

/-- The name of a case without contents: a text, or an object that maps the name to null. -/
def toCase? : Json → Option String
  | str value => value
  | object [(name, null)] => name
  | _ => none

/-- The name and the contents of a case: an object with one member. -/
def toTagged? : Json → Option (String × Json)
  | object [(some name, value)] => some (name, value)
  | _ => none

end CertRotation.Json
