import CertRotation.Proofs.Json.Record
import CertRotation.Proofs.Json.Reread
import CertRotation.Proofs.Rotation.Punctuality
import CertRotation.Settings.File

namespace CertRotation

namespace WebhookIdentity

theorem isProper_toJson (id : WebhookIdentity) : id.toJson.IsProper := by
  refine Json.isProper_record fun m hm => ?_
  simp only [List.mem_cons, List.not_mem_nil, or_false] at hm
  rcases hm with rfl | rfl | rfl
  · exact .str _
  · exact .str _
  · exact .str _

theorem ofJson?_toJson (id : WebhookIdentity) : ofJson? id.toJson = some id := by
  have hfields : id.toJson.fields? ["name", "namespace", "kind"] =
      some [some (.ofString id.name), some (.ofString id.space), some id.kind.toJson] :=
    Json.fields?_zip ["name", "namespace", "kind"]
      [.ofString id.name, .ofString id.space, id.kind.toJson] (by decide) rfl
  have hkind : WebhookKind.ofJson? id.kind.toJson = some id.kind := by
    cases id.kind with
    | mutating => rfl
    | validating => rfl
  rw [ofJson?, hfields]
  simp only [Option.bind_eq_bind, Option.bind_some, hkind]
  rfl

end WebhookIdentity

namespace RotationSettings

/-- The settings with what is read where the factors were written. -/
def reread? (settings : RotationSettings) : Option RotationSettings := do
  return { settings with
    jitterMin := ← settings.jitterMin.reread?
    jitterMax := ← settings.jitterMax.reread? }

variable (settings : RotationSettings)

theorem isProper_toJson : settings.toJson.IsProper := by
  refine Json.isProper_record fun m hm => ?_
  simp only [fieldNames, List.zip_cons_cons, List.zip_nil_left, List.mem_cons, List.not_mem_nil,
    or_false] at hm
  rcases hm with rfl | rfl | rfl | rfl | rfl
  · exact Json.isProper_ofNat _
  · exact Json.isProper_ofBinary64 _
  · exact Json.isProper_ofBinary64 _
  · exact Json.isProper_ofNat _
  · exact Json.isProper_texts _

theorem ofJson?_toJson : ofJson? settings.toJson = settings.reread? := by
  have hfields : settings.toJson.fields? fieldNames = some [
      some (.ofNat settings.certSeconds.toNat), some (.ofBinary64 settings.jitterMin),
      some (.ofBinary64 settings.jitterMax), some (.ofNat settings.retrySeconds.toNat),
      some (.texts settings.organization)] :=
    Json.fields?_zip fieldNames _ (by decide) rfl
  rw [ofJson?, hfields]
  simp only [Option.bind_eq_bind, Option.bind_some, Json.orDefault, Json.toUInt64?_ofNat,
    Json.toList?_texts]
  rfl

end RotationSettings

namespace DaemonSettings

/-- The settings with what is read where the factors were written. -/
def reread? (settings : DaemonSettings) : Option DaemonSettings :=
  settings.rotation.reread?.map fun rotation => { settings with rotation }

variable (settings : DaemonSettings)

theorem isProper_toJson : settings.toJson.IsProper := by
  refine Json.isProper_record fun m hm => ?_
  simp only [List.mem_cons, List.not_mem_nil, or_false] at hm
  rcases hm with rfl | rfl | rfl
  · exact .str _
  · exact settings.rotation.isProper_toJson
  · exact Json.isProper_ofList fun id _ => id.isProper_toJson

theorem ofJson?_toJson : ofJson? settings.toJson = settings.reread? := by
  have hfields : settings.toJson.fields? ["output_dir", "rotation", "webhooks"] = some [
      some (.ofString settings.outputDir), some settings.rotation.toJson,
      some (.ofList WebhookIdentity.toJson settings.webhooks)] :=
    Json.fields?_zip ["output_dir", "rotation", "webhooks"] [.ofString settings.outputDir,
      settings.rotation.toJson, .ofList WebhookIdentity.toJson settings.webhooks] (by decide) rfl
  have hwebhooks : Json.toList? WebhookIdentity.ofJson?
      (.ofList WebhookIdentity.toJson settings.webhooks) = some settings.webhooks :=
    Json.toList?_ofList fun id _ => id.ofJson?_toJson
  rw [ofJson?, hfields, reread?]
  simp only [Option.bind_eq_bind, Option.bind_some, Json.orDefault,
    RotationSettings.ofJson?_toJson, hwebhooks]
  cases settings.rotation.reread? with
  | none => rfl
  | some rotation => rfl

theorem ofText_fileText {reread : DaemonSettings} (h : settings.reread? = some reread)
    (now : Instant) :
    ofText settings.fileText now = (reread.check now).map fun _ => reread := by
  have hread : (Json.parse? settings.fileText).bind ofJson? = some reread := by
    rw [fileText, Json.parse?_indentedText settings.isProper_toJson, Option.bind_some,
      ofJson?_toJson, h]
  simp only [ofText, hread]
  cases reread.check now with
  | error failure => rfl
  | ok => rfl

end DaemonSettings

end CertRotation
