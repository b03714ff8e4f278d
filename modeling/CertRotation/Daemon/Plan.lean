import CertRotation.CommandLine.Help
import CertRotation.Rotation.Manager
import CertRotation.Settings.File
import CertRotation.Store.Directory

namespace CertRotation

/-- What the daemon is to do: the store that all managers share, and a manager for each webhook. -/
structure DaemonPlan where
  settings : DaemonSettings
  store : DirectoryStore
  managers : List RotationManager

namespace DaemonPlan

/-- The plan that settings give, if they are accepted now. -/
def ofSettings (settings : DaemonSettings) (now : Instant) : Except Failure DaemonPlan := do
  let managers ← settings.webhooks.mapM fun id =>
    RotationManager.ofSettings id settings.rotation now
  return ⟨settings, ⟨settings.outputDir⟩, managers⟩

/-- The plan that a file of settings gives. -/
def load (path : String) (now : Instant) : FileWork DaemonPlan := do
  let settings ← DaemonSettings.load path now
  ExceptT.mk (pure (ofSettings settings now))

end DaemonPlan

/-- Writes settings to start from, and gives a text that tells how to go on. -/
def DaemonSettings.writeSample (path : String) : FileWork String := do
  sample.save path
  return CommandLine.unlines ["Config written to " ++ path, "",
    "Edit the file to list your webhooks, then run:",
    "  " ++ CommandLine.programName ++ " " ++ CommandLine.Command.run.name ++ " --" ++
      CommandLine.Flag.config.longName ++ " " ++ path]

end CertRotation
