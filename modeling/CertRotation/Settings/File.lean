import CertRotation.Files.Work
import CertRotation.Json.Reader
import CertRotation.Json.Writer
import CertRotation.JsonForm.Settings
import CertRotation.Octets

namespace CertRotation.DaemonSettings

def fileText (settings : DaemonSettings) : String := settings.toJson.indentedText

/-- The settings that a text gives, if they are accepted now. -/
def ofText (text : String) (now : Instant) : Except Failure DaemonSettings := do
  let some settings := (Json.parse? text).bind ofJson? | throw (.config .invalidJson)
  settings.check now
  return settings

def load (path : String) (now : Instant) : FileWork DaemonSettings := do
  let contents ← FileWork.call (.read path) (.config (.unreadableFile path))
  let some text := Utf8.decode? contents | throw (.config (.unreadableFile path))
  ExceptT.mk (pure (ofText text now))

/-- Writes the settings to a file, in a directory that is made if it is missing. -/
def save (settings : DaemonSettings) (path : String) : FileWork Unit := do
  match FilePath.parent? path with
  | none | some "" => pure ()
  | some parent => FileWork.call (.makeDirectories parent) (.config (.missingDirectory parent))
  FileWork.call (.write path (Utf8.encode settings.fileText)) (.config (.unwritableFile path))

end CertRotation.DaemonSettings
