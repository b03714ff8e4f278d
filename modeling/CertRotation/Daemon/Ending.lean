import CertRotation.CommandLine.Help
import CertRotation.Failure

namespace CertRotation

/-- The end of the program. Its output is for other programs, its complaint for people. -/
structure Ending where
  code : UInt8
  output : String
  complaint : String
deriving DecidableEq, Repr

namespace Ending

/-- The end of work that went well. -/
def success (output : String) : Ending := ⟨0, output, ""⟩

/-- The end that a failure brings about. -/
def ofFailure (failure : Failure) : Ending := ⟨1, "", "Error: " ++ failure.message ++ "\n"⟩

/-- The end after a command line that asks for no work. Only one that is refused is at fault. -/
def ofHalt : CommandLine.Halt → Ending
  | .help topic => success (CommandLine.unlines topic.lines)
  | .version => success CommandLine.versionText
  | .misuse fault => ⟨2, "", fault.text⟩

/-- The end of work that gave a text or failed. -/
def ofResult : Except Failure String → Ending
  | .ok output => success output
  | .error failure => ofFailure failure

end Ending

end CertRotation
