import CertRotation.JsonForm.Certificate
import CertRotation.Proofs.IpAddress.Text
import CertRotation.Proofs.Json.Record
import CertRotation.Proofs.Settings.Reread
import CertRotation.Proofs.Time.Text

namespace CertRotation

namespace Json

variable {α : Type} {write : α → Json} {read : Json → Option α}

/-- A value whose form can be written, and is read as the value. -/
structure Rereads (write : α → Json) (read : Json → Option α) (value : α) : Prop where
  isProper : (write value).IsProper
  read_write : read (write value) = some value

/-- The compact text of a value gives the value, and what is read is written as the same text. -/
def GivesBack (write : α → Json) (read : Json → Option α) (value : α) : Prop :=
  (parse? (write value).compactText).bind read = some value ∧
    ((parse? (write value).compactText).bind read).map (fun found => (write found).compactText) =
      some (write value).compactText

theorem Rereads.givesBack {value : α} (h : Rereads write read value) :
    GivesBack write read value := by
  have hread : (parse? (write value).compactText).bind read = some value := by
    rw [parse?_compactText h.isProper, Option.bind_some, h.read_write]
  constructor
  · exact hread
  · rw [hread, Option.map_some]

theorem rereads_ofList {items : List α} (h : ∀ item ∈ items, Rereads write read item) :
    Rereads (ofList write) (toList? read) items :=
  ⟨isProper_ofList fun item hmem => (h item hmem).isProper,
    toList?_ofList fun item hmem => (h item hmem).read_write⟩

theorem isProper_zip {names : List String} {values : List Json}
    (h : ∀ value ∈ values, value.IsProper) : (record (names.zip values)).IsProper := by
  refine isProper_record fun m hm => ?_
  exact h m.2 (List.of_mem_zip hm).2

theorem mapM_id_map_some (values : List Json) : (values.map some).mapM id = some values := by
  induction values with
  | nil => rfl
  | cons value values ih =>
      rw [List.map_cons, List.mapM_cons, ih]
      rfl

end Json

open Json

theorem Octets.rereads (bytes : Octets) : Rereads Octets.toJson Octets.ofJson? bytes := by
  constructor
  · exact isProper_ofList fun byte _ => isProper_ofNat byte.toNat
  · refine toList?_ofList fun byte _ => ?_
    have hlt := byte.toNat_lt
    have hword : byte.toNat < JsonNumber.wordLimit := Nat.lt_trans hlt (by decide)
    simp only [Json.ofNat, toWord?, JsonNumber.toWord?_toDigits hword, Option.bind_eq_bind,
      Option.bind_some, hlt, if_true, UInt8.ofNat_toNat]
    rfl

theorem IpAddress.rereads (address : IpAddress) :
    Rereads IpAddress.toJson IpAddress.ofJson? address := by
  constructor
  · exact .str _
  · change IpAddress.parse? (String.ofList address.text).toList = some address
    rw [String.toList_ofList, IpAddress.parse?_text]

theorem Instant.rereads {t : Instant} (hrange : t.inRange = true) (h : t.IsRegular) :
    Rereads Instant.toJson Instant.ofJson? t := by
  constructor
  · exact .str _
  · have hread := Instant.parse?_isoText hrange h
    simp only [Instant.ofJson?, Instant.toJson, ofString, toText?, Option.bind_eq_bind,
      Option.bind_some, hread]

theorem ExtendedKeyUsage.rereads (usage : ExtendedKeyUsage) :
    Rereads ExtendedKeyUsage.toJson ExtendedKeyUsage.ofJson? usage := by
  constructor
  · exact .str _
  · cases usage with
    | any => rfl
    | serverAuth => rfl
    | clientAuth => rfl
    | codeSigning => rfl
    | emailProtection => rfl

theorem KeyUsage.rereads (usage : KeyUsage) :
    Rereads KeyUsage.toJson KeyUsage.ofJson? usage := by
  constructor
  · exact .str _
  · cases usage with
    | digitalSignature => rfl
    | keyEncipherment => rfl
    | keyCertSign => rfl
    | crlSign => rfl

theorem SubjectAltName.rereads (name : SubjectAltName) :
    Rereads SubjectAltName.toJson SubjectAltName.ofJson? name := by
  cases name with
  | dns name =>
      constructor
      · exact isProper_record fun m hm => by
          rw [List.mem_singleton.mp hm]
          exact .str name
      · rfl
  | ip address =>
      constructor
      · exact isProper_record fun m hm => by
          rw [List.mem_singleton.mp hm]
          exact address.rereads.isProper
      · change (IpAddress.ofJson? address.toJson).bind (fun address => some (ip address)) = _
        rw [address.rereads.read_write, Option.bind_some]

theorem DistinguishedName.rereads (name : DistinguishedName) :
    Rereads DistinguishedName.toJson DistinguishedName.ofJson? name := by
  have hform : name.toJson = record (["common_name", "organization"].zip
      [ofString name.commonName, texts name.organization]) := rfl
  constructor
  · rw [hform]
    apply isProper_zip
    simp only [List.forall_mem_cons, List.not_mem_nil, false_imp_iff, implies_true, and_true]
    exact ⟨.str _, isProper_texts _⟩
  · rw [hform, ofJson?, fields?_zip _ _ (by decide) rfl]
    simp only [List.map_cons, List.map_nil, Option.bind_eq_bind, Option.bind_some, toList?_texts]
    rfl

theorem SubjectConfig.rereads (config : SubjectConfig) :
    Rereads SubjectConfig.toJson SubjectConfig.ofJson? config := by
  have hips := @rereads_ofList _ _ _ config.ips fun address _ => address.rereads
  have husages := @rereads_ofList _ _ _ config.usages fun usage _ => usage.rereads
  have hform : config.toJson = record (["common_name", "organization", "alt_names", "usages"].zip
      [ofString config.commonName, texts config.organization,
        record (["dns_names", "ips"].zip
          [texts config.dnsNames, ofList IpAddress.toJson config.ips]),
        ofList ExtendedKeyUsage.toJson config.usages]) := rfl
  constructor
  · rw [hform]
    apply isProper_zip
    simp only [List.forall_mem_cons, List.not_mem_nil, false_imp_iff, implies_true, and_true]
    refine ⟨.str _, isProper_texts _, isProper_zip ?_, husages.isProper⟩
    simp only [List.forall_mem_cons, List.not_mem_nil, false_imp_iff, implies_true, and_true]
    exact ⟨isProper_texts _, hips.isProper⟩
  · rw [hform, ofJson?, fields?_zip _ _ (by decide) rfl]
    simp only [List.map_cons, List.map_nil, Option.bind_eq_bind, Option.bind_some]
    rw [fields?_zip _ _ (by decide) rfl]
    simp only [List.map_cons, List.map_nil, Option.bind_some, toList?_texts, hips.read_write,
      husages.read_write]
    rfl

theorem Certificate.rereads {cert : Certificate}
    (hbefore : cert.notBefore.inRange = true ∧ cert.notBefore.IsRegular)
    (hafter : cert.notAfter.inRange = true ∧ cert.notAfter.IsRegular) :
    Rereads Certificate.toJson Certificate.ofJson? cert := by
  have hder := cert.der.rereads
  have hserial := cert.serial.rereads
  have hnotBefore := Instant.rereads hbefore.1 hbefore.2
  have hnotAfter := Instant.rereads hafter.1 hafter.2
  have hsubject := cert.subject.rereads
  have hissuer := cert.issuer.rereads
  have hsan := @rereads_ofList _ _ _ cert.san fun name _ => name.rereads
  have hkeyUsages := @rereads_ofList _ _ _ cert.keyUsages fun usage _ => usage.rereads
  have hextended := @rereads_ofList _ _ _ cert.extendedKeyUsages fun usage _ => usage.rereads
  constructor
  · apply isProper_zip
    simp only [List.forall_mem_cons, List.not_mem_nil, false_imp_iff, implies_true, and_true]
    exact ⟨hder.isProper, hserial.isProper, hnotBefore.isProper, hnotAfter.isProper,
      hsubject.isProper, hissuer.isProper, hsan.isProper, .bool _, hkeyUsages.isProper,
      hextended.isProper⟩
  · rw [ofJson?, toJson, fields?_zip fieldNames _ (by decide) rfl]
    rw [Option.bind_eq_bind, Option.bind_some, mapM_id_map_some]
    simp only [hder.read_write, hserial.read_write, hnotBefore.read_write, hnotAfter.read_write,
      hsubject.read_write, hissuer.read_write, hsan.read_write, hkeyUsages.read_write,
      hextended.read_write, toBool?, Option.bind_eq_bind, Option.bind_some]
    rfl

/-- The compact text of a request, an identity or a certificate record gives it back, whatever it
holds, as long as the times of a record are instants of the calendar outside leap seconds. -/
theorem Json.givesBack_of_form :
    (∀ config, GivesBack SubjectConfig.toJson SubjectConfig.ofJson? config) ∧
      (∀ id, GivesBack WebhookIdentity.toJson WebhookIdentity.ofJson? id) ∧
      ∀ cert : Certificate, cert.notBefore.inRange = true → cert.notBefore.IsRegular →
        cert.notAfter.inRange = true → cert.notAfter.IsRegular →
          GivesBack Certificate.toJson Certificate.ofJson? cert := by
  refine ⟨fun config => config.rereads.givesBack, fun id => ?_, ?_⟩
  · exact (Rereads.mk id.isProper_toJson id.ofJson?_toJson).givesBack
  · intro cert hbefore hbefore' hafter hafter'
    exact (Certificate.rereads ⟨hbefore, hbefore'⟩ ⟨hafter, hafter'⟩).givesBack

namespace Sample

/-- A record from a year before year 0 to one above 9999, with a fraction at either end. -/
def longLived : Certificate where
  der := [48, 0, 255]
  serial := []
  notBefore := ⟨-63549360000, 5000000⟩
  notAfter := ⟨316516204800, 120000789⟩
  subject := ⟨"a \"b\"\n", ["ü", ""]⟩
  issuer := ⟨"", []⟩
  san := [.dns "*.ops", .ip (.v4 #v[127, 0, 0, 1]), .ip (.v6 #v[0, 0, 1, 0, 0, 0, 0, 10]),
    .ip (.v6 #v[0, 0, 0, 0, 0, 0xffff, 0x7f00, 1])]
  isCa := true
  keyUsages := [.crlSign]
  extendedKeyUsages := [.any, .serverAuth]

end Sample

theorem Json.givesBack_of_form_sample :
    Sample.longLived.notBefore.isoText = "-0044-03-15T00:00:00.005Z" ∧
      Sample.longLived.notAfter.isoText = "+12000-01-01T00:00:00.120000789Z" ∧
      GivesBack Certificate.toJson Certificate.ofJson? Sample.longLived := by
  refine ⟨by decide, by decide, ?_⟩
  exact givesBack_of_form.2.2 Sample.longLived (by decide) (by unfold Instant.IsRegular; decide)
    (by decide) (by unfold Instant.IsRegular; decide)

end CertRotation
