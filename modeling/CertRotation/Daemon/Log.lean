import CertRotation.CommandLine.Basic
import CertRotation.Failure
import CertRotation.Json.Writer

namespace CertRotation

/-- Something that the daemon tells about. -/
inductive DaemonEvent where
  | starting (path : String)
  | loaded (outputDir : String) (webhooks : Nat) (certSeconds : UInt64)
  | managing (id : WebhookIdentity) (directory : String)
  | failed (failure : Failure)
  | stopping
  | stopped
deriving DecidableEq

namespace DaemonEvent

def severity : DaemonEvent → String
  | failed _ => "WARN"
  | _ => "INFO"

def message : DaemonEvent → String
  | starting _ => "starting " ++ CommandLine.programName
  | loaded .. => "loaded config"
  | managing .. => "managing webhook"
  | failed _ => "certificate rotation failed, will retry"
  | stopping => "shutdown signal received, stopping rotation managers"
  | stopped => CommandLine.programName ++ " stopped"

def details : DaemonEvent → List (String × String)
  | starting path => [("config", path)]
  | loaded outputDir webhooks certSeconds =>
    [("output_dir", outputDir), ("webhooks", toString webhooks),
      ("cert_duration_secs", toString certSeconds.toNat)]
  | managing id directory => [("webhook", id.text), ("dir", directory)]
  | failed failure => [("error", failure.message)]
  | stopping | stopped => []

/-- The line for an event at a time. -/
def line (event : DaemonEvent) (now : Instant) : CommandLine.LogFormat → String
  | .text =>
    " ".intercalate ([now.isoText, event.severity, event.message] ++
      event.details.map fun (name, value) => name ++ "=" ++ value)
  | .json =>
    (Json.record [("timestamp", .ofString now.isoText), ("level", .ofString event.severity),
      ("fields", .record (("message", .ofString event.message) ::
        event.details.map fun (name, value) => (name, .ofString value)))]).compactText

end DaemonEvent

end CertRotation
