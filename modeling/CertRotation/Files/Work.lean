import CertRotation.Failure
import CertRotation.Files.Operation

namespace CertRotation

/-- A program on files that may fail. -/
abbrev FileWork := ExceptT Failure FileProgram

namespace FileWork

/-- Makes a call whose failure is for the caller to judge. -/
def attempt (operation : FileOperation) : FileWork (Except FileFault operation.Value) :=
  ExceptT.mk (.ok <$> FileProgram.call operation)

/-- Makes a call and reports its failure as a given one. -/
def call (operation : FileOperation) (failure : Failure) : FileWork operation.Value :=
  ExceptT.mk do
    match ← FileProgram.call operation with
    | .ok value => return .ok value
    | .error _ => return .error failure

/-- What a file holds, if it is there. -/
def readOptional (path : String) (failure : Failure) : FileWork (Option Octets) := do
  match ← attempt (.read path) with
  | .ok contents => return some contents
  | .error .notFound => return none
  | .error _ => throw failure

end FileWork

end CertRotation
