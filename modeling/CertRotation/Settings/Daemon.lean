import CertRotation.Settings.Rotation

namespace CertRotation

/-- The settings of the daemon. -/
structure DaemonSettings where
  outputDir : String
  rotation : RotationSettings
  webhooks : List WebhookIdentity
deriving DecidableEq

namespace DaemonSettings

/-- Checks webhooks in order: each must be accepted, and none may be among those before it. -/
def checkWebhooks (seen : List WebhookIdentity) : List WebhookIdentity → Except Failure Unit
  | [] => .ok ()
  | id :: rest => do
    id.check
    if seen.contains id then throw (.config (.duplicateWebhook id))
    checkWebhooks (id :: seen) rest

def check (settings : DaemonSettings) (now : Instant) : Except Failure Unit := do
  if settings.outputDir = "" then throw (.config .emptyOutputDir)
  if settings.webhooks = [] then throw (.config .noWebhooks)
  settings.rotation.check now
  checkWebhooks [] settings.webhooks

/-- Settings to start from, with one webhook. -/
def sample : DaemonSettings where
  outputDir := "/var/lib/webhook-certd"
  rotation := .defaults
  webhooks := [⟨"my-webhook", "default", .mutating⟩]

end DaemonSettings

end CertRotation
