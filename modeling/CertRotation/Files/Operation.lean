import CertRotation.Files.Tree
import CertRotation.Program

namespace CertRotation

/-- A call to the file system. -/
inductive FileOperation where
  | makeDirectories (path : String)
  | write (path : String) (contents : Octets)
  | makePrivate (path : String)
  | removeFile (path : String)
  | removeTree (path : String)
  | makeLink (target path : String)
  | rename (source target : String)
  | probe (path : String)
  | readLink (path : String)
  | read (path : String)
deriving DecidableEq, Repr

namespace FileOperation

/-- What a call gives when it does not fail. -/
abbrev Value : FileOperation → Type
  | readLink _ => String
  | read _ => Octets
  | _ => Unit

/-- Keeps a tree and a value, or the old tree and a fault. -/
def settle (tree : FileTree) : Except FileFault FileTree → Except FileFault Unit × FileTree
  | .ok changed => (.ok (), changed)
  | .error fault => (.error fault, tree)

/-- Makes the call. A call that fails leaves the tree as it was, but for directories on the way to
one that cannot be made, and for what lies below a directory that cannot be removed. -/
def run : (operation : FileOperation) → StateM FileTree (Except FileFault operation.Value)
  | makeDirectories path, tree => tree.makeDirectories path
  | write path contents, tree => settle tree (tree.write path contents)
  | makePrivate path, tree => settle tree (tree.makePrivate path)
  | removeFile path, tree => settle tree (tree.removeFile path)
  | removeTree path, tree => tree.removeTree path
  | makeLink target path, tree => settle tree (tree.makeLink target path)
  | rename source target, tree => settle tree (tree.rename source target)
  | probe path, tree => (tree.probe path, tree)
  | readLink path, tree => (tree.readLink path, tree)
  | read path, tree => (tree.read path, tree)

/-- The file system as surroundings of programs. -/
def interface : Interface := ⟨FileOperation, fun operation => Except FileFault operation.Value⟩

end FileOperation

abbrev FileProgram := Program FileOperation.interface

namespace FileProgram

def call (operation : FileOperation) : FileProgram (Except FileFault operation.Value) :=
  Program.perform (I := FileOperation.interface) operation

/-- Runs a program alone on a tree. -/
def run {α : Type} (program : FileProgram α) : StateM FileTree α :=
  Program.run (I := FileOperation.interface) FileOperation.run program

end FileProgram

end CertRotation
