import CertRotation.Files.Path
import CertRotation.Octets

/-!
File trees with symbolic links. A tree lists its entries by location; the top is a directory that
is always there. Every operation changes a tree the way a single call to the file system does.
-/

namespace CertRotation

/-- What stands at a location. A private file can be read by its owner alone. -/
inductive FileEntry where
  | directory
  | file (contents : Octets) (isPrivate : Bool)
  | link (target : String)
deriving DecidableEq, Repr

/-- Why a file operation fails. -/
inductive FileFault where
  | notFound
  | notDirectory
  | isDirectory
  | exists
  | notEmpty
  | notLink
  | tooManyLinks
  | nameTooLong
  | intoItself
deriving DecidableEq, Repr

/-- The entries of a file tree below its top. -/
structure FileTree where
  entries : List (Location × FileEntry)
deriving DecidableEq, Repr

namespace FileTree

def empty : FileTree := ⟨[]⟩

def entry? (tree : FileTree) : Location → Option FileEntry
  | [] => some .directory
  | location => tree.entries.lookup location

/-- The tree without the entry at a location. -/
def erase (tree : FileTree) (location : Location) : FileTree :=
  ⟨tree.entries.filter (·.1 != location)⟩

/-- The tree with another entry at a location. -/
def insert (tree : FileTree) (location : Location) (entry : FileEntry) : FileTree :=
  ⟨(location, entry) :: (tree.erase location).entries⟩

/-- Whether one location lies below another. -/
def isBelow (location ancestor : Location) : Bool :=
  ancestor.isPrefixOf location && location != ancestor

def hasEntries (tree : FileTree) (location : Location) : Bool :=
  tree.entries.any fun e => isBelow e.1 location

/-- The tree without what lies below a location. -/
def clear (tree : FileTree) (location : Location) : FileTree :=
  ⟨tree.entries.filter fun e => !isBelow e.1 location⟩

/-- The longest name, in octets. -/
def maxNameOctets : Nat := 255

/-- The number of links that a path may lead through. -/
def maxLinks : Nat := 40

/-- Where following a path stops: at a location, whose entry may be missing, or at a link in a
directory, with the steps that are left. -/
inductive Stop where
  | reached (location : Location)
  | atLink (directory : Location) (target : String) (rest : List String)
  | failed (fault : FileFault)
deriving DecidableEq, Repr

/-- Takes steps from a directory up to the first link that is to be followed. A link at the end is
followed only on demand. -/
def walk (tree : FileTree) (followLast : Bool) (directory : Location) : List String → Stop
  | [] => .reached directory
  | "." :: rest => tree.walk followLast directory rest
  | ".." :: rest => tree.walk followLast directory.dropLast rest
  | name :: rest =>
    let location := directory ++ [name]
    if name.utf8ByteSize > maxNameOctets then .failed .nameTooLong
    else
      match tree.entry? location with
      | some .directory => tree.walk followLast location rest
      | some (.link target) =>
        if rest.isEmpty && !followLast then .reached location else .atLink directory target rest
      | some (.file ..) => if rest.isEmpty then .reached location else .failed .notDirectory
      | none => if rest.isEmpty then .reached location else .failed .notFound

/-- Takes steps from a directory through a limited number of links. -/
def follow (tree : FileTree) (followLast : Bool) : (links : Nat) → Location → List String →
    Except FileFault Location
  | links, directory, steps =>
    match tree.walk followLast directory steps with
    | .reached location => .ok location
    | .failed fault => .error fault
    | .atLink directory target rest =>
      match links with
      | 0 => .error .tooManyLinks
      | links + 1 =>
        tree.follow followLast links (if target.startsWith "/" then [] else directory)
          (FilePath.steps target ++ rest)

/-- The location that a path leads to from the top; its entry may be missing. -/
def locate (tree : FileTree) (path : String) (followLast : Bool) : Except FileFault Location :=
  if path = "" then .error .notFound
  else tree.follow followLast maxLinks [] (FilePath.steps path)

/-- The location and the entry that a path leads to. -/
def find (tree : FileTree) (path : String) (followLast : Bool) :
    Except FileFault (Location × FileEntry) := do
  let location ← tree.locate path followLast
  match tree.entry? location with
  | some entry => return (location, entry)
  | none => throw .notFound

def readLink (tree : FileTree) (path : String) : Except FileFault String := do
  match ← tree.find path false with
  | (_, .link target) => return target
  | _ => throw .notLink

def read (tree : FileTree) (path : String) : Except FileFault Octets := do
  match ← tree.find path true with
  | (_, .file contents _) => return contents
  | (_, .directory) => throw .isDirectory
  | (_, .link _) => throw .tooManyLinks

/-- Checks that something stands at a path, be it a link that leads nowhere. -/
def probe (tree : FileTree) (path : String) : Except FileFault Unit := do
  let _ ← tree.find path false

/-- Replaces the contents of a file, or makes a new one that others can read. -/
def write (tree : FileTree) (path : String) (contents : Octets) : Except FileFault FileTree := do
  let location ← tree.locate path true
  match tree.entry? location with
  | some (.file _ isPrivate) => return tree.insert location (.file contents isPrivate)
  | some .directory => throw .isDirectory
  | some (.link _) => throw .tooManyLinks
  | none => return tree.insert location (.file contents false)

def makePrivate (tree : FileTree) (path : String) : Except FileFault FileTree := do
  match ← tree.find path true with
  | (location, .file contents _) => return tree.insert location (.file contents true)
  | _ => return tree

def makeLink (tree : FileTree) (target path : String) : Except FileFault FileTree := do
  let location ← tree.locate path false
  match tree.entry? location with
  | some _ => throw .exists
  | none => return tree.insert location (.link target)

/-- Whether a path leads to a directory. -/
def isDirectory (tree : FileTree) (path : String) : Bool :=
  match tree.find path true with
  | .ok (_, .directory) => true
  | _ => false

/-- Makes one directory, in a directory that is there. -/
def makeDirectory (tree : FileTree) (path : String) : Except FileFault FileTree := do
  let steps := FilePath.steps (FilePath.withoutSlashesAtEnd path)
  let location ← tree.follow false maxLinks [] steps
  match tree.entry? location with
  | some _ => throw .exists
  | none => return tree.insert location .directory

/-- Makes the first of some directories, each in the one after it, which is made in the same way if
it is missing. The empty path stands for a directory that is there. -/
def makeMissing (tree : FileTree) : List String → Except FileFault Unit × FileTree
  | [] => (.error .notFound, tree)
  | "" :: _ => (.ok (), tree)
  | path :: above =>
    let retry (before : FileTree) : Except FileFault Unit × FileTree :=
      match before.makeDirectory path with
      | .ok after => (.ok (), after)
      | .error fault => (if before.isDirectory path then .ok () else .error fault, before)
    match tree.makeDirectory path with
    | .error .notFound =>
      match tree.makeMissing above with
      | (.ok (), changed) => retry changed
      | failed => failed
    | _ => retry tree

/-- Makes a directory and those that lead to it, unless they are there. Directories made before a
failure stay. -/
def makeDirectories (tree : FileTree) (path : String) : Except FileFault Unit × FileTree :=
  tree.makeMissing (FilePath.ancestors path)

def removeFile (tree : FileTree) (path : String) : Except FileFault FileTree := do
  match ← tree.find path false with
  | (_, .directory) => throw .isDirectory
  | (location, _) => return tree.erase location

/-- Removes a link, or a directory with all that lies below it. A directory that a path does not
lead to by its own name loses only what lies below it, and stays. -/
def removeTree (tree : FileTree) (path : String) : Except FileFault Unit × FileTree :=
  match tree.find path false with
  | .error fault => (.error fault, tree)
  | .ok (location, .link _) => (.ok (), tree.erase location)
  | .ok (_, .file ..) => (.error .notDirectory, tree)
  | .ok (location, .directory) =>
    let cleared := tree.clear location
    let steps := FilePath.steps (FilePath.withoutSlashesAtEnd path)
    if [some ".", some ".."].contains steps.getLast? then (.error .notEmpty, cleared)
    else
      match tree.follow false maxLinks [] steps with
      | .ok named =>
        if named = location then (.ok (), cleared.erase location) else (.error .notDirectory, cleared)
      | .error fault => (.error fault, cleared)

/-- Moves an entry, with what lies below it, to a place where nothing, or nothing of weight,
stands: a file or a link for a file or a link, an empty directory for a directory. -/
def rename (tree : FileTree) (source target : String) : Except FileFault FileTree := do
  let (origin, entry) ← tree.find source false
  let place ← tree.locate target false
  if origin = place then return tree
  if isBelow place origin then throw .intoItself
  match entry, tree.entry? place with
  | .directory, some .directory => if tree.hasEntries place then throw .notEmpty
  | .directory, some _ => throw .notDirectory
  | _, some .directory => throw .isDirectory
  | _, _ => pure ()
  let moved := (tree.erase place).entries.map fun (location, e) =>
    (if origin.isPrefixOf location then place ++ location.drop origin.length else location, e)
  return ⟨moved⟩

end FileTree

end CertRotation
