import CertRotation.Proofs.Rotation.Punctuality
import CertRotation.Proofs.Store.Identities
import CertRotation.Rotation.Manager
import CertRotation.Settings.File

namespace CertRotation

namespace Issuance

/-- A duration that a certificate can carry now could be carried at any earlier time. -/
theorem exists_endOfValidity?_of_le {t now stop : Instant} {s : ℕ} (ht : t.IsReading)
    (hnow : now.IsReading) (hle : now ≤ t) (hs : 0 < s)
    (h : endOfValidity? t (.ofSeconds s) = some stop) :
    ∃ earlier, endOfValidity? now (.ofSeconds s) = some earlier := by
  obtain ⟨rfl, hrange, hyear⟩ := endOfValidity?_eq_some_iff.mp h
  have hlater := Instant.seconds_plus_ofSeconds ht.fraction hs
  have hearlier := Instant.seconds_plus_ofSeconds hnow.fraction hs
  have hseconds : now.seconds ≤ t.seconds := by
    rcases hle with hlt | ⟨heq, -⟩
    · exact Int.le_of_lt hlt
    · exact Int.le_of_eq heq
  have hfirst := Instant.inRange_iff.mp hnow.inRange
  have hlast := Instant.inRange_iff.mp hrange
  refine ⟨_, endOfValidity?_eq_some_iff.mpr ⟨rfl, ?_, ?_⟩⟩
  · rw [Instant.inRange_iff]
    omega
  · refine Int.le_trans (Instant.year_le_of_seconds_le ?_) hyear
    omega

variable {config : SubjectConfig} {key caKey : PrivateKey} {ca : Certificate}
  {duration : Duration} {now stop : Instant} {serial : LeafSerial} {fault : ConfigFault}

theorem checkSigningKey_error {failure : Failure} (h : key.checkSigningKey = .error failure) :
    ∃ fault, failure = .signing fault := by
  unfold PrivateKey.checkSigningKey at h
  cases hform : key.pkcs8?.isNone with
  | true =>
      rw [hform] at h
      cases h
      exact ⟨_, rfl⟩
  | false =>
      rw [hform] at h
      cases key with
      | ecdsaP256 key => cases h
      | rsa key =>
          cases husable : key.isSigningKey with
          | true =>
              simp only [husable] at h
              cases h
          | false =>
              simp only [husable] at h
              cases h
              exact ⟨_, rfl⟩

theorem checkWritable_error {start : Instant} {failure : Failure}
    (h : checkWritable start stop = .error failure) : ∃ fault, failure = .signing fault := by
  unfold checkWritable at h
  split at h
  · cases h
  · cases h
    exact ⟨_, rfl⟩

theorem issueAuthority_ne_invalidConfig (hstop : endOfValidity? now duration = some stop) :
    issueAuthority config key duration now ≠ .error (.invalidConfig fault) := by
  intro h
  simp only [issueAuthority, hstop, bind_eq_error_iff] at h
  rcases h with h | ⟨_, -, h | ⟨_, -, h⟩⟩
  · obtain ⟨_, hsigning⟩ := checkSigningKey_error h
    cases hsigning
  · obtain ⟨_, hsigning⟩ := checkWritable_error h
    cases hsigning
  · obtain ⟨_, hparse⟩ := Certificate.ofDer_error h
    cases hparse

theorem issueLeaf_ne_invalidConfig (hconfig : config.checkLeaf = .ok ())
    (hnames : ∀ name ∈ config.dnsNames, isWritableName name = true)
    (hstop : endOfValidity? now duration = some stop) :
    issueLeaf config key ca caKey duration now serial ≠ .error (.invalidConfig fault) := by
  have hwritable : config.dnsNames.find? (!isWritableName ·) = none := by
    rw [List.find?_eq_none]
    intro name hmem
    simp [hnames name hmem]
  intro h
  simp only [issueLeaf, hconfig, hwritable, hstop, ok_bind] at h
  split at h
  · cases h
  · split at h
    · cases h
    · simp only [bind_eq_error_iff] at h
      rcases h with h | ⟨_, -, h | ⟨_, -, h | ⟨_, -, h⟩⟩⟩
      · obtain ⟨_, hsigning⟩ := checkSigningKey_error h
        cases hsigning
      · obtain ⟨_, hsigning⟩ := checkSigningKey_error h
        cases hsigning
      · obtain ⟨_, hsigning⟩ := checkWritable_error h
        cases hsigning
      · obtain ⟨_, hparse⟩ := Certificate.ofDer_error h
        cases hparse

end Issuance

namespace WebhookIdentity

variable {id other : WebhookIdentity}

theorem isWritableName_of_check (h : id.check = .ok ()) :
    ∀ host ∈ id.serviceHostnames, Issuance.isWritableName host = true := by
  intro host hhost
  obtain ⟨rest, hrest, htext⟩ := toList_of_mem_serviceHostnames hhost
  obtain ⟨hname, hspace⟩ := isLabelChar_of_check h
  have hends : rest.toList.all (·.toNat < 128) = true := by
    simp only [List.mem_cons, List.not_mem_nil, or_false] at hrest
    rcases hrest with rfl | rfl
    · rfl
    · rfl
  rw [List.all_eq_true] at hends
  rw [Issuance.isWritableName, List.all_eq_true, htext]
  intro c hmem
  rw [decide_eq_true_eq]
  simp only [List.mem_append, List.mem_cons] at hmem
  rcases hmem with hmem | rfl | hmem | rfl | hmem
  · exact toNat_lt_of_isLabelChar (hname c hmem)
  · decide
  · exact toNat_lt_of_isLabelChar (hspace c hmem)
  · decide
  · exact of_decide_eq_true (hends c hmem)

theorem checkLeaf_leafConfig (id : WebhookIdentity) (organization : List String) :
    (id.leafConfig organization).checkLeaf = .ok () := by
  have hname : (id.leafConfig organization).commonName ≠ "" := by
    rw [ne_eq, ← String.toList_eq_nil_iff]
    simp [leafConfig, shortHostname]
  have husages : (id.leafConfig organization).usages ≠ [] := List.cons_ne_nil _ _
  simp only [SubjectConfig.checkLeaf, hname, husages, if_false]
  rfl

end WebhookIdentity

/-- A path lies at a directory or below it, as the two are written. -/
def FilePath.IsWithin (path directory : String) : Prop := steps directory <+: steps path

namespace DirectoryStore

variable {id other : WebhookIdentity} {root : String}

theorem steps_identityDir (h : id.check = .ok ()) :
    FilePath.steps (identityDir ⟨root⟩ id) = FilePath.names root ++ folder id := by
  obtain ⟨_, hname, hspace⟩ := bind_eq_ok_iff.mp h
  rw [identityDir, FilePath.steps_join _ (isName_kind id.kind).isPart,
    FilePath.names_join _ (isPart_of_check hname), FilePath.names_join _ (isPart_of_check hspace),
    append_folder]

theorem not_isWithin_identityDir (hid : id.check = .ok ()) (hother : other.check = .ok ())
    (hne : id ≠ other) :
    ¬FilePath.IsWithin (identityDir ⟨root⟩ other) (identityDir ⟨root⟩ id) := by
  rw [FilePath.IsWithin, steps_identityDir hid, steps_identityDir hother,
    List.prefix_append_right_inj]
  intro hprefix
  have heq : folder id = folder other := hprefix.eq_of_length rfl
  have hsame : folder id ++ [] = folder other ++ [] := by rw [heq]
  exact hne (folder_injective hsame).1

end DirectoryStore

namespace RotationSettings

variable {settings : RotationSettings} {t : Instant}

theorem exists_endOfValidity?_of_check (h : settings.check t = .ok ()) :
    ∃ stop, Issuance.endOfValidity? t settings.certDuration = some stop := by
  simp only [check, guard_bind_eq_ok_iff] at h
  obtain ⟨-, h⟩ := h
  cases hduration : settings.certDuration? with
  | none => simp [hduration] at h
  | some duration =>
      simp only [hduration, guard_bind_eq_ok_iff] at h
      rw [certDuration, hduration, Option.getD_some]
      exact Option.isSome_iff_exists.mp (Option.isSome_iff_ne_none.mpr (by simpa using h.1))

end RotationSettings

namespace DaemonSettings

variable {settings : DaemonSettings} {text : String} {t now : Instant}

theorem checkWebhooks_eq_ok {seen webhooks : List WebhookIdentity}
    (h : checkWebhooks seen webhooks = .ok ()) :
    (∀ id ∈ webhooks, id.check = .ok () ∧ id ∉ seen) ∧ webhooks.Nodup := by
  induction webhooks generalizing seen with
  | nil => exact ⟨fun id hmem => absurd hmem List.not_mem_nil, List.nodup_nil⟩
  | cons id rest ih =>
      rw [checkWebhooks, bind_eq_ok_iff] at h
      obtain ⟨_, hid, h⟩ := h
      rw [guard_bind_eq_ok_iff, List.contains_iff_mem] at h
      obtain ⟨hunseen, h⟩ := h
      obtain ⟨hrest, hnodup⟩ := ih h
      constructor
      · intro other hmem
        rcases List.mem_cons.mp hmem with rfl | hmem
        · exact ⟨hid, hunseen⟩
        · obtain ⟨hother, hnew⟩ := hrest other hmem
          exact ⟨hother, fun hseen => hnew (List.mem_cons_of_mem id hseen)⟩
      · refine List.nodup_cons.mpr ⟨fun hmem => ?_, hnodup⟩
        exact (hrest id hmem).2 List.mem_cons_self

theorem check_of_ofText (h : ofText text t = .ok settings) : settings.check t = .ok () := by
  unfold ofText at h
  cases hread : (Json.parse? text).bind ofJson? with
  | none => simp [hread] at h
  | some found =>
      simp only [hread, bind_eq_ok_iff, pure_eq_ok_iff] at h
      obtain ⟨_, hcheck, rfl⟩ := h
      exact hcheck

theorem check_eq_ok (h : settings.check t = .ok ()) :
    settings.rotation.check t = .ok () ∧ (∀ id ∈ settings.webhooks, id.check = .ok ()) ∧
      settings.webhooks.Nodup := by
  simp only [check, guard_bind_eq_ok_iff, bind_eq_ok_iff] at h
  obtain ⟨-, -, _, hrotation, hwebhooks⟩ := h
  obtain ⟨hids, hnodup⟩ := checkWebhooks_eq_ok hwebhooks
  exact ⟨hrotation, fun id hmem => (hids id hmem).1, hnodup⟩

/-- Settings that a text gives can be run. Every webhook gets a manager, with the validity asked
for to the second. The directories of any two webhooks are apart. No request for a certificate of
theirs is refused as such, at the time of the reading or earlier, whatever the keys. -/
theorem canRun_of_ofText (ht : t.IsReading) (h : ofText text t = .ok settings) :
    settings.rotation.certDuration = .ofSeconds settings.rotation.certSeconds.toNat ∧
    (∀ id ∈ settings.webhooks, ∃ manager,
      RotationManager.ofSettings id settings.rotation t = .ok manager ∧ manager.identity = id ∧
        manager.certDuration = settings.rotation.certDuration ∧
        manager.organization = settings.rotation.organization) ∧
    (settings.webhooks.Pairwise fun id other =>
      let directory := DirectoryStore.identityDir ⟨settings.outputDir⟩
      directory id ≠ directory other ∧ ¬FilePath.IsWithin (directory id) (directory other) ∧
        ¬FilePath.IsWithin (directory other) (directory id)) ∧
    ∀ id ∈ settings.webhooks, ∀ now, now.IsReading → now ≤ t → ∀ (key : PrivateKey) fault,
      Issuance.issueAuthority (id.caConfig settings.rotation.organization) key
          settings.rotation.certDuration now ≠ .error (.invalidConfig fault) ∧
        ∀ ca caKey serial,
          Issuance.issueLeaf (id.leafConfig settings.rotation.organization) key ca caKey
            settings.rotation.certDuration now serial ≠ .error (.invalidConfig fault) := by
  obtain ⟨hrotation, hids, hnodup⟩ := check_eq_ok (check_of_ofText h)
  obtain ⟨hpos, hduration, -⟩ := RotationSettings.check_eq_ok hrotation
  refine ⟨hduration, ?_, ?_, ?_⟩
  · intro id hmem
    have hmanager : RotationManager.ofSettings id settings.rotation t =
        .ok { RotationManager.new id settings.rotation.certDuration with
          organization := settings.rotation.organization
          retryBackoff := settings.rotation.retryBackoff } := by
      rw [RotationManager.ofSettings, hrotation, hids id hmem]
      rfl
    exact ⟨_, hmanager, rfl, rfl, rfl⟩
  · refine List.Pairwise.imp_of_mem ?_ hnodup
    intro id other hmem hmem' hne
    have hapart := @DirectoryStore.not_isWithin_identityDir id other settings.outputDir
      (hids id hmem) (hids other hmem') hne
    have hapart' := @DirectoryStore.not_isWithin_identityDir other id settings.outputDir
      (hids other hmem') (hids id hmem) hne.symm
    refine ⟨fun heq => hapart ?_, hapart', hapart⟩
    rw [heq]
    exact List.prefix_rfl
  · intro id hmem now hnow hle key fault
    obtain ⟨stop, hstop⟩ := RotationSettings.exists_endOfValidity?_of_check hrotation
    rw [hduration] at hstop ⊢
    obtain ⟨earlier, hearlier⟩ := Issuance.exists_endOfValidity?_of_le ht hnow hle hpos hstop
    refine ⟨Issuance.issueAuthority_ne_invalidConfig hearlier, ?_⟩
    intro ca caKey serial
    exact Issuance.issueLeaf_ne_invalidConfig (id.checkLeaf_leafConfig _)
      (WebhookIdentity.isWritableName_of_check (hids id hmem)) hearlier

end DaemonSettings

/-! Settings for both webhooks of one service. Their certificates last to the end of the last year
that a certificate can carry. -/

namespace Sample

def settingsText : String :=
  "\x7b\"output_dir\": \"out\", \"rotation\": \x7b\"cert_duration_secs\": 251702300799\x7d, " ++
    "\"webhooks\": [" ++
      "\x7b\"name\": \"hook\", \"namespace\": \"ops\", \"kind\": \"mutating\"\x7d, " ++
      "\x7b\"name\": \"hook\", \"namespace\": \"ops\", \"kind\": \"validating\"\x7d]\x7d"

def settings : DaemonSettings where
  outputDir := "out"
  rotation := { RotationSettings.defaults with certSeconds := 251702300799 }
  webhooks := [⟨"hook", "ops", .mutating⟩, identity]

/-- The time at which the text is read. -/
def readAt : Instant := ⟨1700000000, 0⟩

theorem ofText_settingsText : DaemonSettings.ofText settingsText readAt = .ok settings := by
  have hsome : (DaemonSettings.ofText settingsText readAt).toOption = some settings := by
    decide +kernel
  cases hread : DaemonSettings.ofText settingsText readAt with
  | error failure =>
      rw [hread] at hsome
      cases hsome
  | ok found =>
      rw [hread] at hsome
      rw [Option.some.inj hsome]

end Sample

/-- Certificates issued at the reading end with the last second of the last year. -/
theorem DaemonSettings.canRun_of_ofText_sample :
    Sample.readAt.IsReading ∧ ofText Sample.settingsText Sample.readAt = .ok Sample.settings ∧
      (∃ manager, RotationManager.ofSettings Sample.identity Sample.settings.rotation
          Sample.readAt = .ok manager ∧ manager.certDuration = .ofSeconds 251702300799) ∧
      ¬FilePath.IsWithin (DirectoryStore.identityDir ⟨"out"⟩ Sample.identity)
        (DirectoryStore.identityDir ⟨"out"⟩ ⟨"hook", "ops", .mutating⟩) ∧
      Sample.issuedAt.IsReading ∧ Sample.issuedAt ≤ Sample.readAt ∧
      ∀ (key : PrivateKey) fault, Issuance.issueAuthority (Sample.identity.caConfig []) key
        (.ofSeconds 251702300799) Sample.issuedAt ≠ .error (.invalidConfig fault) := by
  have hreading : Sample.readAt.IsReading := ⟨by decide, by decide⟩
  have hearlier : Sample.issuedAt.IsReading := ⟨by decide, by decide⟩
  have hmem : Sample.identity ∈ Sample.settings.webhooks := by decide
  obtain ⟨hduration, hmanagers, happart, hissue⟩ :=
    canRun_of_ofText hreading Sample.ofText_settingsText
  obtain ⟨manager, hmanager, -, hsame, -⟩ := hmanagers Sample.identity hmem
  refine ⟨hreading, Sample.ofText_settingsText, ⟨manager, hmanager, hsame.trans hduration⟩, ?_,
    hearlier, by decide, ?_⟩
  · exact ((List.pairwise_cons.mp happart).1 Sample.identity List.mem_cons_self).2.2
  · intro key fault
    exact (hissue Sample.identity hmem Sample.issuedAt hearlier (by decide) key fault).1

end CertRotation
