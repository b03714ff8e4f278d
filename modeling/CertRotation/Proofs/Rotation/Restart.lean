import CertRotation.Proofs.Issuance.Acceptance
import CertRotation.Proofs.Rotation.History
import CertRotation.Proofs.Trust.Verdict

/-!
What a manager finds that starts where another one has rotated. Within the validity of the current
authority it takes up that authority and writes nothing; outside of it, it fails or writes a
generation of its own.
-/

namespace CertRotation

namespace Generation

/-- A generation was made by a run of minting, whoever answered it. -/
def IsMinted (generation : Generation) : Prop :=
  ∃ id organization duration now transcript,
    (mint id organization duration now).run.Yields transcript (.ok generation)

namespace IsMinted

variable {generation other : Generation} {t : Instant}

theorem isSound (h : generation.IsMinted) : generation.IsSound := by
  obtain ⟨id, organization, duration, now, transcript, hmint⟩ := h
  exact (isSound_of_mint hmint).1

theorem ofPem_bundle (h : generation.IsMinted) :
    TrustPool.ofPem generation.bundle = .ok ⟨[generation.ca], by simp⟩ := by
  obtain ⟨id, organization, duration, now, transcript, hmint⟩ := h
  obtain ⟨caKey, key, serial, leaf, keyPem, hca, -, -, hbundle, -⟩ := mint_yields_ok hmint
  rw [hbundle]
  exact TrustPool.ofPem_pem (Issuance.ofDer_issueAuthority hca)

theorem exists_leaf (h : generation.IsMinted) :
    ∃ leaf, Certificate.decodePem generation.material.certPem = .ok [leaf] ∧
      ∀ t, leaf.isValidAt t = generation.ca.isValidAt t := by
  obtain ⟨id, organization, duration, now, transcript, hmint⟩ := h
  obtain ⟨caKey, key, serial, leaf, keyPem, hca, hleaf, hmaterial, -, -⟩ := mint_yields_ok hmint
  refine ⟨leaf, ?_, ?_⟩
  · rw [hmaterial]
    exact Certificate.decodePem_pem (Issuance.ofDer_issueLeaf hleaf)
  · intro t
    obtain ⟨hbefore, hafter⟩ := Issuance.validity_eq_of_issue hca hleaf
    simp only [Certificate.isValidAt, Certificate.isExpiredAt, Certificate.isNotYetValidAt,
      hbefore, hafter]

theorem verifyChain_of_not_isValidAt (h : generation.IsMinted)
    (hinvalid : generation.ca.isValidAt t = false) :
    ∃ failure, generation.material.verifyChain generation.bundle t = .error failure := by
  cases hchain : generation.material.verifyChain generation.bundle t with
  | error failure => exact ⟨failure, rfl⟩
  | ok pair =>
      obtain ⟨_, chain, pool, host, _, -, -, hpool, -, hverify, -⟩ :=
        TlsMaterial.verifyChain_eq_ok_iff.mp hchain
      obtain ⟨-, hfound, -⟩ := TrustPool.verify_eq_ok_iff.mp hverify
      obtain ⟨hroot, -, hvalid⟩ := TrustPool.findIssuer_eq_ok hfound
      obtain rfl := Except.ok.inj (h.ofPem_bundle.symm.trans hpool)
      rw [List.mem_singleton.mp hroot, hinvalid] at hvalid
      cases hvalid

/-- Two generations that are not valid at the same times have nothing in common. -/
theorem ne_of_isValidAt (h : generation.IsMinted) (hother : other.IsMinted)
    (hinvalid : generation.ca.isValidAt t = false) (hvalid : other.ca.isValidAt t = true) :
    other.ca ≠ generation.ca ∧ other.bundle ≠ generation.bundle ∧
      other.material ≠ generation.material := by
  have hca : other.ca ≠ generation.ca := by
    intro heq
    rw [heq, hinvalid] at hvalid
    cases hvalid
  refine ⟨hca, ?_, ?_⟩
  · intro heq
    have hpool := h.ofPem_bundle
    rw [← heq, hother.ofPem_bundle] at hpool
    simp only [Except.ok.injEq, TrustPool.mk.injEq, List.cons.injEq, and_true] at hpool
    exact hca hpool
  · intro heq
    obtain ⟨leaf, hcerts, hleaf⟩ := h.exists_leaf
    obtain ⟨leaf', hcerts', hleaf'⟩ := hother.exists_leaf
    rw [heq, hcerts] at hcerts'
    obtain rfl : leaf = leaf' := by simpa using hcerts'
    rw [← hleaf', hleaf, hinvalid] at hvalid
    cases hvalid

end IsMinted

end Generation

namespace ManagerTranscript

/-- The last rotation was written out: of the requests to write, the last one has published a
bundle. -/
def EndsInRotation (past : ManagerTranscript) : Prop :=
  ∃ id bundle, (past.filter (·.request.isWrite)).getLast? = some ⟨.putBundle id bundle, .ok ()⟩

variable {past quiet : ManagerTranscript}

theorem endsInRotation_append_of_quiet
    (hquiet : ∀ exchange ∈ quiet, exchange.request.isWrite = false) :
    EndsInRotation (past ++ quiet) ↔ EndsInRotation past := by
  have hnone : quiet.filter (·.request.isWrite) = [] := by
    simpa [List.filter_eq_nil_iff] using hquiet
  rw [EndsInRotation, List.filter_append, hnone, List.append_nil, EndsInRotation]

theorem not_endsInRotation_of_put {id : WebhookIdentity} {material : TlsMaterial}
    {failure : Failure} :
    ¬EndsInRotation (past ++ [⟨.put id material, .error failure⟩]) := by
  rintro ⟨_, _, h⟩
  simp [ManagerRequest.isWrite] at h
  cases h

theorem not_endsInRotation_of_putBundle {id : WebhookIdentity} {bundle : Octets}
    {failure : Failure} :
    ¬EndsInRotation (past ++ [⟨.putBundle id bundle, .error failure⟩]) := by
  rintro ⟨_, _, h⟩
  simp [ManagerRequest.isWrite] at h
  cases h

end ManagerTranscript

/-- The store and the publisher hold the two parts of a generation. -/
structure Collaborators.HoldsGeneration (held : Collaborators) (id : WebhookIdentity)
    (generation : Generation) : Prop where
  material : held.materials.get? id = some generation.material
  bundle : held.bundles.get? id = some generation.bundle

namespace RotationManager

theorem isMinted_of_nextGeneration {manager : RotationManager} {now : Instant}
    {supply : ManagerTranscript} {generation : Generation}
    (hpending : ∀ generation, manager.pending = some generation → generation.IsMinted)
    (h : (manager.nextGeneration now).run.Yields supply (.ok generation)) :
    generation.IsMinted := by
  rcases nextGeneration_yields h with ⟨_, hsome, -, -, heq⟩ | ⟨-, hmint⟩
  · cases heq
    exact hpending generation hsome
  · exact ⟨_, _, _, now, supply, hmint⟩

theorem isWrite_of_nextGeneration {manager : RotationManager} {now : Instant}
    {supply : ManagerTranscript} {result : Except Failure Generation}
    (h : (manager.nextGeneration now).run.Yields supply result) :
    ∀ exchange ∈ (⟨.now, now⟩ :: supply : ManagerTranscript), exchange.request.isWrite = false :=
  fun exchange hmem =>
    ManagerRequest.isWrite_of_not_isCollaboration (quiet_of_nextGeneration h exchange hmem)

end RotationManager

/-- What holds between calls: the pending generation was minted, and after a rotation that
succeeded the collaborators hold a minted generation whose authority is the current one. -/
structure IsSettled (first manager : RotationManager) (held : Collaborators)
    (past : ManagerTranscript) : Prop where
  identity : manager.identity = first.identity
  pending (generation : Generation) : manager.pending = some generation → generation.IsMinted
  current : past.EndsInRotation → ∃ generation : Generation, generation.IsMinted ∧
    manager.ca = some generation.ca ∧ held.HoldsGeneration first.identity generation

namespace IsSettled

variable {first manager next : RotationManager} {held last : Collaborators}
  {past transcript : ManagerTranscript}

theorem append (h : IsSettled first manager held past)
    (hquiet : ∀ exchange ∈ transcript, exchange.request.isWrite = false)
    (hidentity : next.identity = manager.identity)
    (hca : manager.ca = none ∨ next.ca = manager.ca)
    (hpending : next.pending = none ∨ next.pending = manager.pending) :
    IsSettled first next held (past ++ transcript) := by
  refine ⟨hidentity.trans h.identity, ?_, ?_⟩
  · intro generation hsome
    rcases hpending with hnone | hsame
    · rw [hnone] at hsome
      cases hsome
    · exact h.pending generation (hsame ▸ hsome)
  · intro hrotated
    rw [ManagerTranscript.endsInRotation_append_of_quiet hquiet] at hrotated
    obtain ⟨generation, hminted, hcurrent, hholds⟩ := h.current hrotated
    rcases hca with hnone | hsame
    · rw [hnone] at hcurrent
      cases hcurrent
    · exact ⟨generation, hminted, hsame.trans hcurrent, hholds⟩

theorem rotates {result : Except Failure Certificate} (h : IsSettled first manager held past)
    (hrotates : manager.Rotates transcript (result, next)) (hleads : held.Leads transcript last) :
    IsSettled first next last (past ++ transcript) := by
  cases hrotates with
  | unmade hnext =>
      have hquiet := RotationManager.isWrite_of_nextGeneration hnext
      obtain rfl := Collaborators.eq_of_leads hleads hquiet
      exact h.append hquiet rfl (.inr rfl) (.inl rfl)
  | unstored hnext =>
      refine ⟨h.identity, ?_, ?_⟩
      · rintro _ ⟨⟩
        exact RotationManager.isMinted_of_nextGeneration h.pending hnext
      · intro hrotated
        rw [← List.append_assoc] at hrotated
        exact absurd hrotated ManagerTranscript.not_endsInRotation_of_put
  | unpublished hnext =>
      refine ⟨h.identity, ?_, ?_⟩
      · rintro _ ⟨⟩
        exact RotationManager.isMinted_of_nextGeneration h.pending hnext
      · intro hrotated
        rw [List.append_cons _ _ [_], ← List.append_assoc] at hrotated
        exact absurd hrotated ManagerTranscript.not_endsInRotation_of_putBundle
  | @committed now supply generation hnext =>
      obtain rfl := RotationManager.eq_withGeneration_of_leads hnext hleads
      refine ⟨h.identity, ?_, ?_⟩
      · rintro _ ⟨⟩
      · intro _
        refine ⟨generation, RotationManager.isMinted_of_nextGeneration h.pending hnext, rfl, ?_⟩
        rw [← h.identity]
        exact ⟨IdentityMap.get?_insert_self _ _ _, IdentityMap.get?_insert_self _ _ _⟩

theorem isKept (first : RotationManager) : IsKept (IsSettled first) where
  quiet h hwaiting :=
    h.append (fun exchange hmem =>
      ManagerRequest.isWrite_of_not_isCollaboration (hwaiting exchange hmem)) rfl (.inr rfl)
      (.inr rfl)
  unread h hca hreads := h.append hreads rfl (.inl hca) (.inr rfl)
  found h hca _ _ _ := h.append (by simp [ManagerRequest.isWrite]) rfl (.inl hca) (.inr rfl)
  rotates h hrotates hleads := h.rotates hrotates hleads

end IsSettled

theorem isSettled_of_reaches {first manager : RotationManager} {start held : Collaborators}
    {past : ManagerTranscript} (h : Reaches first start manager held past) :
    IsSettled first manager held past := by
  refine (IsSettled.isKept first).of_reaches ?_ h
  intro hca hpending
  refine ⟨rfl, ?_, ?_⟩
  · intro generation hsome
    rw [hpending] at hsome
    cases hsome
  · rintro ⟨id, bundle, hlast⟩
    cases hlast

/-- Whether an exchange is a read that failed. -/
def ManagerExchange.failsToRead : ManagerExchange → Bool
  | ⟨.get _, .error _⟩ | ⟨.getBundle _, .error _⟩ => true
  | _ => false

namespace Generation

/-- The exchanges of a manager that finds a generation and looks at the clock. -/
def readings (generation : Generation) (id : WebhookIdentity) (t : Instant) : ManagerTranscript :=
  [⟨.get id, .ok (some generation.material)⟩, ⟨.getBundle id, .ok (some generation.bundle)⟩,
    ⟨.now, t⟩]

variable {generation : Generation} {id : WebhookIdentity} {t : Instant}
  {held last : Collaborators} {transcript : ManagerTranscript}

theorem leads_readings (hholds : held.HoldsGeneration id generation) :
    held.Leads (generation.readings id t) held :=
  .cons hholds.material.symm (.cons hholds.bundle.symm (.cons trivial (.nil _)))

theorem IsMinted.yields_issuer_iff (h : generation.IsMinted)
    {result : Except Failure (Option Certificate)} :
    Program.Yields (ExceptT.run (m := Work) (match
      generation.material.verifyChain generation.bundle t with
      | .ok (_, ca) => return some ca
      | .error _ => return none)) transcript result ↔
      transcript = [] ∧
        result = .ok (if generation.ca.isValidAt t then some generation.ca else none) := by
  cases hvalid : generation.ca.isValidAt t with
  | true =>
      obtain ⟨leaf, hchain⟩ := h.isSound t hvalid
      simp only [hchain, if_true]
      exact Program.yields_pure_iff
  | false =>
      obtain ⟨failure, hchain⟩ := h.verifyChain_of_not_isValidAt hvalid
      simp only [hchain]
      exact Program.yields_pure_iff

/-- A manager that looks for a generation where one is held finds it, and takes up its authority
exactly within its validity. -/
theorem IsMinted.loadExisting_yields_iff (h : generation.IsMinted)
    (hholds : held.HoldsGeneration id generation)
    {result : Except Failure (Option Certificate)}
    (hreads : ∀ exchange ∈ transcript, ManagerExchange.failsToRead exchange = false) :
    ((RotationManager.loadExisting id).run.Yields transcript result ∧
        held.Leads transcript last) ↔
      last = held ∧ ∃ t, transcript = generation.readings id t ∧
        result = .ok (if generation.ca.isValidAt t then some generation.ca else none) := by
  constructor
  · rintro ⟨hrun, hleads⟩
    rcases Program.yields_run_bind_iff.mp hrun with
      ⟨failure, rfl, hget⟩ | ⟨found, _, rest, rfl, hget, hrest⟩
    · obtain rfl := Program.yields_perform_iff.mp hget
      simp [ManagerExchange.failsToRead] at hreads
    obtain rfl := Program.yields_perform_iff.mp hget
    obtain ⟨hfound, hleads⟩ := Collaborators.leads_cons_iff.mp hleads
    obtain rfl : found = some generation.material := Eq.trans hfound hholds.material
    rcases Program.yields_run_bind_iff.mp hrest with
      ⟨failure, rfl, hbundle⟩ | ⟨found, _, rest, rfl, hbundle, hafter⟩
    · obtain rfl := Program.yields_perform_iff.mp hbundle
      simp [ManagerExchange.failsToRead] at hreads
    obtain rfl := Program.yields_perform_iff.mp hbundle
    obtain ⟨hfound, hleads⟩ := Collaborators.leads_cons_iff.mp hleads
    obtain rfl : found = some generation.bundle := Eq.trans hfound hholds.bundle
    obtain ⟨t, _, rfl, hread⟩ := Program.yields_run_lift_perform_bind_iff.mp hafter
    obtain ⟨rfl, rfl⟩ := h.yields_issuer_iff.mp hread
    obtain ⟨-, hleads⟩ := Collaborators.leads_cons_iff.mp hleads
    exact ⟨Collaborators.leads_nil_iff.mp hleads, t, rfl, rfl⟩
  · rintro ⟨rfl, t, rfl, rfl⟩
    refine ⟨.ask (.ask ?_), leads_readings hholds⟩
    exact Program.yields_run_lift_perform_bind_iff.mpr
      ⟨t, [], rfl, h.yields_issuer_iff.mpr ⟨rfl, rfl⟩⟩

end Generation

/-- A manager puts a new generation in the place of the current one: it mints one from the answers
of this very run, stores and publishes it, and takes up its authority. If the current generation is
not valid at the time of minting, the new one has nothing in common with it. -/
def RotationManager.Replaces (manager : RotationManager) (current : Generation)
    (transcript : ManagerTranscript) (result : Except Failure Certificate × RotationManager)
    (last : Collaborators) : Prop :=
  ∃ now supply generation,
    transcript = ⟨.now, now⟩ :: supply ++
      [⟨.put manager.identity generation.material, .ok ()⟩,
        ⟨.putBundle manager.identity generation.bundle, .ok ()⟩] ∧
    (Generation.mint manager.identity manager.organization manager.certDuration now).run.Yields
      supply (.ok generation) ∧
    result = (.ok generation.ca, { manager with ca := some generation.ca, pending := none }) ∧
    last.HoldsGeneration manager.identity generation ∧
    (¬(current.ca.notBefore ≤ now ∧ now ≤ current.ca.notAfter) →
      generation.ca ≠ current.ca ∧ generation.bundle ≠ current.bundle ∧
        generation.material ≠ current.material)

theorem RotationManager.Rotates.replaces {manager next : RotationManager} {current : Generation}
    {held last : Collaborators} {transcript : ManagerTranscript}
    {result : Except Failure Certificate} (h : manager.Rotates transcript (result, next))
    (hminted : current.IsMinted) (hpending : manager.pending = none)
    (hleads : held.Leads transcript last) :
    (∃ failure, result = .error failure) ∨
      manager.Replaces current transcript (result, next) last := by
  cases h with
  | unmade hnext => exact .inl ⟨_, rfl⟩
  | unstored hnext => exact .inl ⟨_, rfl⟩
  | unpublished hnext => exact .inl ⟨_, rfl⟩
  | @committed now supply generation hnext =>
      obtain rfl := eq_withGeneration_of_leads hnext hleads
      rcases nextGeneration_yields hnext with ⟨_, hsome, -⟩ | ⟨-, hmint⟩
      · rw [hpending] at hsome
        cases hsome
      refine .inr ⟨now, supply, generation, rfl, hmint, rfl, ?_, ?_⟩
      · exact ⟨IdentityMap.get?_insert_self _ _ _, IdentityMap.get?_insert_self _ _ _⟩
      · intro hinvalid
        rw [← Certificate.isValidAt_iff, Bool.not_eq_true] at hinvalid
        exact hminted.ne_of_isValidAt ⟨_, _, _, _, _, hmint⟩ hinvalid
          (Generation.isSound_of_mint hmint).2

/-- Restarting does not rotate. Where a manager has rotated, another one for the same webhook that
has just been made takes up the current authority at every time of its validity: it reads the store,
the bundle and the clock, and writes nothing. At every other time it takes up nothing: it fails, or
writes and publishes a generation that it has minted. -/
theorem restarts_of_reaches {first manager other : RotationManager} {start held : Collaborators}
    {past : ManagerTranscript} {ca : Certificate} (hreaches : Reaches first start manager held past)
    (hrotated : past.EndsInRotation) (hca : manager.ca = some ca)
    (hidentity : other.identity = first.identity) (hempty : other.ca = none)
    (hpending : other.pending = none) :
    ∃ current : Generation, current.ca = ca ∧ held.HoldsGeneration other.identity current ∧
      (∀ t, ca.notBefore ≤ t → t ≤ ca.notAfter →
        other.loadOrGenerate.Yields (current.readings other.identity t)
            (.ok ca, { other with ca := some ca }) ∧
          held.Leads (current.readings other.identity t) held) ∧
      ∀ transcript result next last, other.loadOrGenerate.Yields transcript (result, next) →
        held.Leads transcript last →
        (∀ exchange ∈ transcript, ManagerExchange.failsToRead exchange = false) →
        ∃ t rest, transcript = current.readings other.identity t ++ rest ∧
          (ca.notBefore ≤ t ∧ t ≤ ca.notAfter →
            result = .ok ca ∧ next.ca = some ca ∧ last = held ∧
              ∀ exchange ∈ transcript, exchange.request.isWrite = false) ∧
          (¬(ca.notBefore ≤ t ∧ t ≤ ca.notAfter) →
            (∃ failure, result = .error failure) ∨
              other.Replaces current rest (result, next) last) := by
  obtain ⟨current, hminted, hcurrent, hholds⟩ := (isSettled_of_reaches hreaches).current hrotated
  obtain rfl : current.ca = ca := Option.some.inj (hcurrent.symm.trans hca)
  rw [← hidentity] at hholds
  refine ⟨current, rfl, hholds, ?_, ?_⟩
  · intro t hstarts hends
    have hvalid := Certificate.isValidAt_iff.mpr ⟨hstarts, hends⟩
    have hread := (hminted.loadExisting_yields_iff hholds
      (by simp [Generation.readings, ManagerExchange.failsToRead])).mpr ⟨rfl, t, rfl, rfl⟩
    rw [if_pos hvalid] at hread
    refine ⟨?_, hread.2⟩
    rw [RotationManager.loadOrGenerate, hempty]
    exact Program.yields_bind_iff.mpr ⟨_, _, [], (List.append_nil _).symm, hread.1, .done _⟩
  · intro transcript result next last hrun hleads hreads
    rw [RotationManager.loadOrGenerate, hempty] at hrun
    obtain ⟨loaded, before, rest, rfl, hread, hrest⟩ := Program.yields_bind_iff.mp hrun
    obtain ⟨between, hbefore, hafter⟩ := Collaborators.leads_append_iff.mp hleads
    obtain ⟨rfl, t, rfl, rfl⟩ := (hminted.loadExisting_yields_iff hholds
      fun exchange hmem => hreads exchange (List.mem_append_left _ hmem)).mp ⟨hread, hbefore⟩
    refine ⟨t, rest, rfl, ?_, ?_⟩
    · intro hwindow
      rw [if_pos (Certificate.isValidAt_iff.mpr hwindow)] at hrest
      obtain ⟨rfl, heq⟩ := Program.yields_pure_iff.mp hrest
      cases heq
      refine ⟨rfl, rfl, Collaborators.leads_nil_iff.mp hafter, ?_⟩
      simp [Generation.readings, ManagerRequest.isWrite]
    · intro hwindow
      rw [if_neg (fun h => hwindow (Certificate.isValidAt_iff.mp h))] at hrest
      exact (RotationManager.rotates_of_yields hrest).replaces hminted hpending hafter

namespace Sample

/-- A manager for the webhook of the sample that has not loaded anything yet. -/
def restarted : RotationManager :=
  { RotationManager.new identity (.ofSeconds 1) with organization := ["ops"] }

/-- The exchanges of its first rotation, where nothing is stored yet. -/
def rotation (generation : Generation) : ManagerTranscript :=
  [⟨.get identity, .ok none⟩, ⟨.now, issuedAt⟩, ⟨.newKey, .ok (.rsa signingKey)⟩,
    ⟨.newKey, .ok (.rsa signingKey)⟩, ⟨.newSerial, .ofRandom 7⟩,
    ⟨.put identity generation.material, .ok ()⟩, ⟨.putBundle identity generation.bundle, .ok ()⟩]

theorem yields_rotation {generation : Generation}
    (hmint : (Generation.mint identity ["ops"] (.ofSeconds 1) issuedAt).run.Yields
      [⟨.newKey, .ok (.rsa signingKey)⟩, ⟨.newKey, .ok (.rsa signingKey)⟩,
        ⟨.newSerial, .ofRandom 7⟩] (.ok generation)) :
    restarted.loadOrGenerate.Yields (rotation generation)
      (.ok generation.ca, { restarted with ca := some generation.ca, pending := none }) := by
  refine Program.yields_bind_iff.mpr ⟨.ok none, [⟨.get identity, .ok none⟩], _, rfl, ?_, ?_⟩
  · exact .ask (.done _)
  · refine Program.yields_perform_bind_iff.mpr ⟨issuedAt, _, rfl, ?_⟩
    refine Program.yields_bind_iff.mpr ⟨.ok generation, _, _, rfl, hmint, ?_⟩
    exact .ask (.ask (.done _))

def rotated (generation : Generation) : Collaborators where
  materials := IdentityMap.empty.insert identity generation.material
  bundles := IdentityMap.empty.insert identity generation.bundle

theorem leads_rotation (generation : Generation) :
    Collaborators.Leads ⟨.empty, .empty⟩ (rotation generation) (rotated generation) := by
  refine .cons rfl (.cons trivial (.cons trivial (.cons trivial (.cons trivial ?_))))
  exact .cons trivial (.cons trivial (.nil _))

theorem endsInRotation_rotation (generation : Generation) :
    (rotation generation).EndsInRotation := ⟨_, _, rfl⟩

end Sample

theorem restarts_of_reaches_sample :
    ∃ (generation : Generation) (held : Collaborators) (past : ManagerTranscript),
      Reaches Sample.restarted ⟨.empty, .empty⟩
        { Sample.restarted with ca := some generation.ca, pending := none } held past ∧
      past.EndsInRotation ∧
      ∃ current : Generation, current.ca = generation.ca ∧
        held.HoldsGeneration Sample.restarted.identity current ∧
        ∀ t, generation.ca.notBefore ≤ t → t ≤ generation.ca.notAfter →
          Sample.restarted.loadOrGenerate.Yields (current.readings Sample.restarted.identity t)
              (.ok generation.ca, { Sample.restarted with ca := some generation.ca }) ∧
            held.Leads (current.readings Sample.restarted.identity t) held := by
  obtain ⟨ca, leaf, hca, hleaf⟩ := Sample.exists_issue
  obtain ⟨generation, rfl, hmint⟩ :=
    Generation.exists_mint_of_issue Sample.signsSoundly_signingKey (by decide) hca hleaf
  have hreaches : Reaches Sample.restarted ⟨.empty, .empty⟩
      { Sample.restarted with ca := some generation.ca, pending := none }
      (Sample.rotated generation) (Sample.rotation generation) :=
    .load (.start rfl rfl) (Sample.yields_rotation hmint) (Sample.leads_rotation generation)
  have hends := Sample.endsInRotation_rotation generation
  have hempty : Sample.restarted.ca = none := rfl
  obtain ⟨current, hcurrent, hholds, hwindow, -⟩ :=
    restarts_of_reaches hreaches hends rfl rfl hempty rfl
  exact ⟨generation, _, _, hreaches, hends, current, hcurrent, hholds, hwindow⟩

end CertRotation
