namespace CertRotation

/-- A place in a file tree: the names that lead to it from the top. -/
abbrev Location := List String

namespace FilePath

/-- The part of a path after a directory. A part that begins at the top stands for itself, and an
empty part leaves a slash behind, which the next part does not repeat. -/
def join (directory part : String) : String :=
  if part.startsWith "/" then part
  else if directory = "" ∨ directory.endsWith "/" then directory ++ part
  else directory ++ "/" ++ part

/-- The pieces of a text between slashes. -/
def pieces : List Char → List (List Char)
  | [] => [[]]
  | c :: rest =>
    match pieces rest with
    | [] => [[c]]
    | piece :: more => if c = '/' then [] :: piece :: more else (c :: piece) :: more

/-- A path without the slashes at its end. -/
def withoutSlashesAtEnd (path : String) : String :=
  String.ofList (path.toList.reverse.dropWhile (· == '/')).reverse

/-- The steps that a path takes. A slash at the end is a step to the same place. -/
def steps (path : String) : List String :=
  let parts := (pieces path.toList).map String.ofList
  parts.dropLast.filter (· ≠ "") ++
    match parts.getLast? with
    | some "" => if path = "" then [] else ["."]
    | some last => [last]
    | none => []

/-- Whether a piece of a path leads nowhere else. -/
def isIdle (piece : List Char) : Bool := piece = [] || piece = ['.']

/-- What a path begins with before its first step: the top, or the place it starts from. -/
def lead : List Char → List Char
  | '/' :: _ => ['/']
  | ['.'] => ['.']
  | '.' :: '/' :: _ => ['.']
  | _ => []

/-- Drops the idle pieces at the end. -/
def dropIdleAtEnd (parts : List (List Char)) : List (List Char) :=
  (parts.reverse.dropWhile isIdle).reverse

/-- The path without its last step; the top and the empty path have none. -/
def parent? (path : String) : Option String :=
  let chars := path.toList
  let lead := lead chars
  match dropIdleAtEnd (pieces (chars.drop lead.length)) with
  | [] => if lead = ['.'] then some "" else none
  | part :: parts =>
    let rest := dropIdleAtEnd (part :: parts).dropLast
    some (String.ofList (lead ++ ['/'].intercalate rest))

/-- A path, the path without its last step, and so on; at most `budget` of them. -/
def ancestorsWithin : (budget : Nat) → String → List String
  | 0, _ => []
  | budget + 1, path =>
    path :: match parent? path with
      | some parent => ancestorsWithin budget parent
      | none => []

/-- A path and the paths above it, from the longest on. -/
def ancestors (path : String) : List String := ancestorsWithin (path.length + 1) path

end FilePath

end CertRotation
