import CertRotation.JsonForm.SubjectConfig
import CertRotation.Settings.Daemon

namespace CertRotation

/-- Reads a field that may be left out. -/
def Json.orDefault {α : Type} (read : Json → Option α) (default : α) : Option Json → Option α
  | none => some default
  | some value => read value

def Json.toUInt64? (value : Json) : Option UInt64 := value.toWord?.map UInt64.ofNat

def WebhookKind.toJson (kind : WebhookKind) : Json := .ofString kind.name

def WebhookKind.ofJson? (value : Json) : Option WebhookKind := do
  let name ← value.toCase?
  [WebhookKind.mutating, .validating].find? (·.name == name)

namespace WebhookIdentity

def toJson (id : WebhookIdentity) : Json :=
  .record [("name", .ofString id.name), ("namespace", .ofString id.space), ("kind", id.kind.toJson)]

def ofJson? (value : Json) : Option WebhookIdentity := do
  let [name, space, kind] ← value.fields? ["name", "namespace", "kind"] | none
  return ⟨← (← name).toText?, ← (← space).toText?, ← WebhookKind.ofJson? (← kind)⟩

end WebhookIdentity

namespace RotationSettings

/-- The names of the settings in order. -/
def fieldNames : List String :=
  ["cert_duration_secs", "jitter_min_factor", "jitter_max_factor", "retry_backoff_secs",
    "organization"]

def toJson (settings : RotationSettings) : Json :=
  .record (fieldNames.zip [
    .ofNat settings.certSeconds.toNat, .ofBinary64 settings.jitterMin,
    .ofBinary64 settings.jitterMax, .ofNat settings.retrySeconds.toNat,
    .texts settings.organization])

def ofJson? (value : Json) : Option RotationSettings := do
  let [certSeconds, jitterMin, jitterMax, retrySeconds, organization] ←
    value.fields? fieldNames | none
  return {
    certSeconds := ← certSeconds |> Json.orDefault Json.toUInt64? defaults.certSeconds
    jitterMin := ← jitterMin |> Json.orDefault Json.toBinary64? defaults.jitterMin
    jitterMax := ← jitterMax |> Json.orDefault Json.toBinary64? defaults.jitterMax
    retrySeconds := ← retrySeconds |> Json.orDefault Json.toUInt64? defaults.retrySeconds
    organization :=
      ← organization |> Json.orDefault (Json.toList? Json.toText?) defaults.organization }

end RotationSettings

namespace DaemonSettings

def toJson (settings : DaemonSettings) : Json :=
  .record [("output_dir", .ofString settings.outputDir), ("rotation", settings.rotation.toJson),
    ("webhooks", .ofList WebhookIdentity.toJson settings.webhooks)]

def ofJson? (value : Json) : Option DaemonSettings := do
  let [outputDir, rotation, webhooks] ← value.fields? ["output_dir", "rotation", "webhooks"] | none
  return ⟨← (← outputDir).toText?,
    ← rotation |> Json.orDefault RotationSettings.ofJson? .defaults,
    ← (← webhooks).toList? WebhookIdentity.ofJson?⟩

end DaemonSettings

end CertRotation
