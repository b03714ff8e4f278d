import CertRotation.Proofs.Rotation.Deadline
import CertRotation.Proofs.Rotation.Restart
import CertRotation.Proofs.X509.WholeSeconds

/-!
Deadlines and the leaf that is served. A deadline is taken from the validity of the authority, so
that it keeps to the validity of the leaf exactly if the authority does not outlast the leaf. What
managers mint is so; what they find need not be.
-/

namespace CertRotation

/-- A validity of whole seconds that does not end before it starts. -/
structure Certificate.HasWindow (cert : Certificate) : Prop where
  notBefore : cert.notBefore.IsWholeSecond
  notAfter : cert.notAfter.IsWholeSecond
  le : cert.notBefore ≤ cert.notAfter

theorem Certificate.hasWindow_of_isValidAt {cert : Certificate} {t : Instant}
    (h : cert.notBefore.IsWholeSecond ∧ cert.notAfter.IsWholeSecond)
    (hvalid : cert.isValidAt t = true) : cert.HasWindow := by
  obtain ⟨hstarts, hends⟩ := isValidAt_iff.mp hvalid
  exact ⟨h.1, h.2, Instant.le_trans hstarts hends⟩

namespace Generation.IsMinted

variable {generation : Generation} {t : Instant}

theorem exists_leaf_validity (h : generation.IsMinted) :
    ∃ leaf, Certificate.decodePem generation.material.certPem = .ok [leaf] ∧
      leaf.notBefore = generation.ca.notBefore ∧ leaf.notAfter = generation.ca.notAfter := by
  obtain ⟨id, organization, duration, now, transcript, hmint⟩ := h
  obtain ⟨caKey, key, serial, leaf, keyPem, hca, hleaf, hmaterial, -, -⟩ := mint_yields_ok hmint
  refine ⟨leaf, ?_, Issuance.validity_eq_of_issue hca hleaf⟩
  rw [hmaterial]
  exact Certificate.decodePem_pem (Issuance.ofDer_issueLeaf hleaf)

theorem hasWindow (h : generation.IsMinted) (hvalid : generation.ca.isValidAt t = true) :
    generation.ca.HasWindow :=
  Certificate.hasWindow_of_isValidAt
    (TrustPool.isWholeSecond_of_mem h.ofPem_bundle (List.mem_singleton.mpr rfl)) hvalid

end Generation.IsMinted

/-- The stored material begins with a leaf. -/
def Collaborators.ServesLeaf (held : Collaborators) (id : WebhookIdentity) (leaf : Certificate) :
    Prop :=
  ∃ material chain, held.materials.get? id = some material ∧
    Certificate.decodePem material.certPem = .ok (leaf :: chain)

theorem Collaborators.servesLeaf_of_isMinted {held : Collaborators} {id : WebhookIdentity}
    {generation : Generation} (h : generation.IsMinted)
    (hmaterial : held.materials.get? id = some generation.material) :
    ∃ leaf, held.ServesLeaf id leaf := by
  obtain ⟨leaf, hcerts, -⟩ := h.exists_leaf_validity
  exact ⟨leaf, generation.material, [], hmaterial, hcerts⟩

theorem TlsMaterial.hasWindow_of_verifyChain {material : TlsMaterial} {bundle : Octets}
    {now : Instant} {leaf ca : Certificate}
    (h : material.verifyChain bundle now = .ok (leaf, ca)) : ca.HasWindow := by
  obtain ⟨_, _, pool, _, _, -, -, hpool, -, hverify, -⟩ := verifyChain_eq_ok_iff.mp h
  obtain ⟨-, hfound, -⟩ := TrustPool.verify_eq_ok_iff.mp hverify
  obtain ⟨hroot, -, hvalid⟩ := TrustPool.findIssuer_eq_ok hfound
  exact Certificate.hasWindow_of_isValidAt (TrustPool.isWholeSecond_of_mem hpool hroot) hvalid

/-- What holds between calls of a manager with an authority: the authority has a validity, and a
leaf is served. -/
structure IsServing (first manager : RotationManager) (held : Collaborators)
    (past : ManagerTranscript) : Prop where
  settled : IsSettled first manager held past
  hasWindow (ca : Certificate) : manager.ca = some ca → ca.HasWindow
  serves (ca : Certificate) : manager.ca = some ca → ∃ leaf, held.ServesLeaf first.identity leaf

namespace IsServing

variable {first manager next : RotationManager} {held last : Collaborators}
  {past transcript : ManagerTranscript} {generation : Generation}

theorem of_ca_eq_none (h : IsSettled first manager held past) (hca : manager.ca = none) :
    IsServing first manager held past := by
  refine ⟨h, ?_, ?_⟩
  · intro ca hsome
    rw [hca] at hsome
    cases hsome
  · intro ca hsome
    rw [hca] at hsome
    cases hsome

theorem of_ca_eq_some {ca : Certificate} (h : IsSettled first manager held past)
    (hca : manager.ca = some ca) (hwindow : ca.HasWindow)
    (hserves : ∃ leaf, held.ServesLeaf first.identity leaf) :
    IsServing first manager held past := by
  refine ⟨h, ?_, fun _ _ => hserves⟩
  intro found hsome
  rw [hca] at hsome
  cases hsome
  exact hwindow

theorem append (h : IsServing first manager held past)
    (hsettled : IsSettled first next held (past ++ transcript)) (hca : next.ca = manager.ca) :
    IsServing first next held (past ++ transcript) :=
  ⟨hsettled, fun ca hsome => h.hasWindow ca (hca ▸ hsome),
    fun ca hsome => h.serves ca (hca ▸ hsome)⟩

theorem rotates {result : Except Failure Certificate} (h : IsServing first manager held past)
    (hrotates : manager.Rotates transcript (result, next)) (hleads : held.Leads transcript last) :
    IsServing first next last (past ++ transcript) := by
  have hsettled := h.settled.rotates hrotates hleads
  have hidentity := h.settled.identity
  cases hrotates with
  | unmade hnext =>
      obtain rfl := Collaborators.eq_of_leads hleads
        (RotationManager.isWrite_of_nextGeneration hnext)
      exact h.append hsettled rfl
  | unstored hnext =>
      have hwrites := Collaborators.leads_of_quiet_append
        (RotationManager.quiet_of_nextGeneration hnext) hleads
      obtain ⟨-, rfl⟩ := Collaborators.leads_singleton_iff.mp hwrites
      exact h.append hsettled rfl
  | @unpublished now supply failure generation hnext =>
      have hwrites := Collaborators.leads_of_quiet_append
        (RotationManager.quiet_of_nextGeneration hnext) hleads
      simp only [Collaborators.leads_cons_iff, Collaborators.leads_nil_iff] at hwrites
      obtain ⟨-, -, rfl⟩ := hwrites
      have hminted := RotationManager.isMinted_of_nextGeneration h.settled.pending hnext
      refine ⟨hsettled, h.hasWindow, fun _ _ => ?_⟩
      rw [← hidentity]
      exact Collaborators.servesLeaf_of_isMinted hminted (IdentityMap.get?_insert_self _ _ _)
  | @committed now supply generation hnext =>
      obtain rfl := RotationManager.eq_withGeneration_of_leads hnext hleads
      have hminted := RotationManager.isMinted_of_nextGeneration h.settled.pending hnext
      have hvalid := (RotationManager.isSound_of_nextGeneration
        (fun pending hsome => (h.settled.pending pending hsome).isSound) hnext).2
      refine of_ca_eq_some hsettled rfl (hminted.hasWindow hvalid) ?_
      rw [← hidentity]
      exact Collaborators.servesLeaf_of_isMinted hminted (IdentityMap.get?_insert_self _ _ _)

theorem isKept (first : RotationManager) : IsKept (IsServing first) where
  quiet h hwaiting := h.append ((IsSettled.isKept first).quiet h.settled hwaiting) rfl
  unread h hca hreads := h.append ((IsSettled.isKept first).unread h.settled hca hreads) rfl
  found h hca hmaterial hbundle hchain := by
    have hsettled := (IsSettled.isKept first).found h.settled hca hmaterial hbundle hchain
    obtain ⟨chain, -, hcerts, -⟩ := TlsMaterial.issued_of_verifyChain hchain
    refine of_ca_eq_some hsettled rfl (TlsMaterial.hasWindow_of_verifyChain hchain) ?_
    exact ⟨_, _, chain, h.settled.identity ▸ hmaterial, hcerts⟩
  rotates h hrotates hleads := h.rotates hrotates hleads

end IsServing

theorem isServing_of_reaches {first manager : RotationManager} {start held : Collaborators}
    {past : ManagerTranscript} (h : Reaches first start manager held past) :
    IsServing first manager held past := by
  refine (IsServing.isKept first).of_reaches ?_ h
  intro hca hpending
  exact .of_ca_eq_none (isSettled_of_reaches (.start hca hpending)) hca

namespace RotationManager

variable {manager next : RotationManager} {ca leaf : Certificate} {t : Instant}

theorem nextDeadline_bounds (hca : manager.ca = some ca) (hwindow : ca.HasWindow)
    {asked : ManagerTranscript} {deadline : Option Instant}
    (h : manager.nextDeadline.Yields asked deadline) :
    ∃ d, deadline = some d ∧ ca.notBefore ≤ d ∧ d ≤ ca.notAfter := by
  obtain ⟨offset, rfl, rfl⟩ := (nextDeadline_yields_iff hca).mp h
  exact ⟨_, rfl, rotationDeadline_bounds hwindow.notBefore.isRegular hwindow.notAfter.isRegular
    hwindow.le _⟩

theorem nextDeadline_le_iff (hca : manager.ca = some ca) (hwindow : ca.HasWindow) :
    (∀ asked d, manager.nextDeadline.Yields asked (some d) → d ≤ t) ↔ ca.notAfter ≤ t := by
  constructor
  · intro h
    -- A jitter that draws the whole window puts the deadline at the end.
    have hlatest := (nextDeadline_yields_iff hca).mpr
      ⟨validityWindow ca.notBefore ca.notAfter, rfl, rfl⟩
    have hwhole : rotationDeadline ca.notBefore ca.notAfter
        (fun _ => validityWindow ca.notBefore ca.notAfter) = ca.notAfter :=
      rotationDeadline_whole hwindow.notBefore.isRegular hwindow.notAfter.isRegular hwindow.le
    rw [← hwhole]
    exact h _ _ hlatest
  · intro h asked d hyields
    obtain ⟨_, heq, -, hle⟩ := nextDeadline_bounds hca hwindow hyields
    cases heq
    exact Instant.le_trans hle h

theorem Loads.ca_of_ok {transcript : ManagerTranscript}
    (h : manager.Loads transcript (.ok ca, next)) : next.ca = some ca := by
  cases h with
  | cached hca => exact hca
  | found => rfl
  | made hca hreads hrotates =>
      cases hrotates with
      | committed => rfl

theorem Loads.exists_isMinted {transcript : ManagerTranscript} {held last : Collaborators}
    (h : manager.Loads transcript (.ok ca, next)) (hleads : held.Leads transcript last)
    (hpending : ∀ generation, manager.pending = some generation → generation.IsMinted)
    (hwrites : ∃ exchange ∈ transcript, exchange.request.isWrite = true) :
    ∃ generation : Generation, generation.IsMinted ∧ generation.ca = ca ∧
      last.materials.get? manager.identity = some generation.material := by
  obtain ⟨exchange, hmem, hwrite⟩ := hwrites
  cases h with
  | cached => cases hmem
  | found =>
      simp only [List.mem_cons, List.not_mem_nil, or_false] at hmem
      rcases hmem with rfl | rfl | rfl
      · cases hwrite
      · cases hwrite
      · cases hwrite
  | made hca hreads hrotates =>
      obtain ⟨between, -, hrest⟩ := Collaborators.leads_append_iff.mp hleads
      cases hrotates with
      | @committed now supply generation hnext =>
          obtain rfl := eq_withGeneration_of_leads hnext hrest
          exact ⟨generation, isMinted_of_nextGeneration hpending hnext, rfl,
            IdentityMap.get?_insert_self _ _ _⟩

end RotationManager

theorem Collaborators.ServesLeaf.notAfter_of_isMinted {held : Collaborators}
    {id : WebhookIdentity} {leaf : Certificate} {generation : Generation}
    (h : held.ServesLeaf id leaf) (hminted : generation.IsMinted)
    (hmaterial : held.materials.get? id = some generation.material) :
    leaf.notAfter = generation.ca.notAfter := by
  obtain ⟨material, chain, hstored, hcerts⟩ := h
  obtain rfl := Option.some.inj (hstored.symm.trans hmaterial)
  obtain ⟨own, hown, -, hafter⟩ := hminted.exists_leaf_validity
  obtain ⟨rfl, rfl⟩ : leaf = own ∧ chain = [] := by
    simpa using Except.ok.inj (hcerts.symm.trans hown)
  exact hafter

/-- Whenever a call for an authority succeeds, a leaf is served, and every deadline lies in the
validity of the authority, at its end for the latest. So no deadline is later than the end of the
leaf exactly if the authority does not outlast the leaf. That is so for all material of the
authority's own generation, and for all that the call has written; material that was found may be
otherwise. -/
theorem nextDeadline_of_reaches {first manager next : RotationManager}
    {start held last : Collaborators} {past transcript : ManagerTranscript} {ca : Certificate}
    (hreaches : Reaches first start manager held past)
    (hrun : manager.loadOrGenerate.Yields transcript (.ok ca, next))
    (hleads : held.Leads transcript last) :
    next.ca = some ca ∧ ∃ leaf, last.ServesLeaf first.identity leaf ∧
      (∀ asked deadline, next.nextDeadline.Yields asked deadline →
        ∃ d, deadline = some d ∧ ca.notBefore ≤ d ∧ d ≤ ca.notAfter) ∧
      ((∀ asked d, next.nextDeadline.Yields asked (some d) → d ≤ leaf.notAfter) ↔
        ca.notAfter ≤ leaf.notAfter) ∧
      (∀ generation : Generation, generation.IsMinted → generation.ca = ca →
        last.materials.get? first.identity = some generation.material →
          leaf.notAfter = ca.notAfter) ∧
      ((∃ exchange ∈ transcript, exchange.request.isWrite = true) →
        leaf.notAfter = ca.notAfter) := by
  have hloads := RotationManager.loads_of_yields hrun
  have hca := hloads.ca_of_ok
  have hserving := isServing_of_reaches (hreaches.load hrun hleads)
  obtain ⟨leaf, hleaf⟩ := hserving.serves ca hca
  have hwindow := hserving.hasWindow ca hca
  have hown : ∀ generation : Generation, generation.IsMinted → generation.ca = ca →
      last.materials.get? first.identity = some generation.material →
        leaf.notAfter = ca.notAfter := by
    rintro generation hminted rfl hmaterial
    exact hleaf.notAfter_of_isMinted hminted hmaterial
  refine ⟨hca, leaf, hleaf, ?_, RotationManager.nextDeadline_le_iff hca hwindow, hown, ?_⟩
  · intro asked deadline hyields
    exact RotationManager.nextDeadline_bounds hca hwindow hyields
  · intro hwrites
    have hsettled := isSettled_of_reaches hreaches
    obtain ⟨generation, hminted, hgeneration, hmaterial⟩ :=
      hloads.exists_isMinted hleads hsettled.pending hwrites
    rw [hsettled.identity] at hmaterial
    exact hown generation hminted hgeneration hmaterial

theorem nextDeadline_of_reaches_sample :
    ∃ ca next leaf, Sample.manager.loadOrGenerate.Yields Sample.loading (.ok ca, next) ∧
      Sample.held.Leads Sample.loading Sample.held ∧ next.ca = some ca ∧
      Sample.held.ServesLeaf Sample.manager.identity leaf ∧
      ((∀ asked d, next.nextDeadline.Yields asked (some d) → d ≤ leaf.notAfter) ↔
        ca.notAfter ≤ leaf.notAfter) := by
  obtain ⟨ca, hrun⟩ := Sample.yields_loading
  obtain ⟨hca, leaf, hleaf, -, hdeadline, -, -⟩ :=
    nextDeadline_of_reaches (.start rfl rfl) hrun Sample.leads_loading
  exact ⟨ca, _, leaf, hrun, Sample.leads_loading, hca, hleaf, hdeadline⟩

/-! The leaf of the sample under an authority with the same key that is valid for twice as long. -/

namespace Sample

open Asn1

def lastingAuthority : Octets :=
  certificate ⟨1, ⟨"ca", []⟩, ⟨0, 0⟩, ⟨2000000000, 0⟩, ⟨"ca", []⟩, publicKeyInfo modulus 3,
    [X509.authorityExtension]⟩ []

def lastingBundle : Octets :=
  Utf8.encode (Pem.render ⟨Certificate.blockLabel, lastingAuthority⟩)

/-- Collaborators that hold the leaf and the lasting authority. -/
def lasting : Collaborators where
  materials := IdentityMap.empty.insert manager.identity material
  bundles := IdentityMap.empty.insert manager.identity lastingBundle

/-- The exchanges of a call that finds them. -/
def lastingLoading : ManagerTranscript :=
  [⟨.get manager.identity, .ok (some material)⟩,
    ⟨.getBundle manager.identity, .ok (some lastingBundle)⟩, ⟨.now, now⟩]

theorem exists_lastingChain : ∃ leaf ca,
    material.verifyChain lastingBundle now = .ok (leaf, ca) ∧ leaf.notAfter = ⟨1000000000, 0⟩ ∧
      ca.notBefore = ⟨0, 0⟩ ∧ ca.notAfter = ⟨2000000000, 0⟩ := by
  obtain ⟨hkey, hcert, hbundle⟩ := parse_files lastingAuthority
  have hends : (material.verifyChain lastingBundle now).toOption.map
      (fun pair => (pair.1.notAfter, pair.2.notBefore, pair.2.notAfter)) =
        some (⟨1000000000, 0⟩, ⟨0, 0⟩, ⟨2000000000, 0⟩) := by
    rw [TlsMaterial.verifyChain, PrivateKey.decodePem, Certificate.decodePem, TrustPool.ofPem,
      lastingBundle, hkey, hcert, hbundle]
    decide +kernel
  cases hchain : material.verifyChain lastingBundle now with
  | error failure =>
      rw [hchain] at hends
      cases hends
  | ok pair =>
      rw [hchain] at hends
      simp only [Except.toOption, Option.map_some, Option.some.injEq, Prod.mk.injEq] at hends
      exact ⟨pair.1, pair.2, rfl, hends⟩

end Sample

/-- Half a billion seconds lie between a deadline for the lasting authority and the end of the leaf
that is served. -/
theorem nextDeadline_gt_of_lasting :
    ∃ ca next leaf asked d,
      Sample.manager.ca = none ∧ Sample.manager.pending = none ∧
      Sample.manager.loadOrGenerate.Yields Sample.lastingLoading (.ok ca, next) ∧
      Sample.lasting.Leads Sample.lastingLoading Sample.lasting ∧
      Sample.lasting.ServesLeaf Sample.manager.identity leaf ∧
      next.nextDeadline.Yields asked (some d) ∧ ¬d ≤ leaf.notAfter := by
  obtain ⟨leaf, ca, hchain, hleaf, hbefore, hafter⟩ := Sample.exists_lastingChain
  have hfound : (RotationManager.loadExisting Sample.manager.identity).run.Yields
      Sample.lastingLoading (.ok (some ca)) := by
    refine .ask (.ask ?_)
    apply Program.yields_run_lift_perform_bind_iff.mpr
    refine ⟨Sample.now, [], rfl, ?_⟩
    simp only [hchain]
    exact .done _
  have hrun : Sample.manager.loadOrGenerate.Yields Sample.lastingLoading
      (.ok ca, { Sample.manager with ca := some ca }) :=
    Program.yields_bind_iff.mpr ⟨_, Sample.lastingLoading, [], rfl, hfound, .done _⟩
  have hleads : Sample.lasting.Leads Sample.lastingLoading Sample.lasting :=
    .cons (IdentityMap.get?_insert_self _ _ _).symm
      (.cons (IdentityMap.get?_insert_self _ _ _).symm (.cons trivial (.nil _)))
  obtain ⟨chain, -, hcerts, -⟩ := TlsMaterial.issued_of_verifyChain hchain
  have hserves : Sample.lasting.ServesLeaf Sample.manager.identity leaf :=
    ⟨Sample.material, chain, IdentityMap.get?_insert_self _ _ _, hcerts⟩
  refine ⟨ca, _, leaf, _, _, rfl, rfl, hrun, hleads, hserves,
    (RotationManager.nextDeadline_yields_iff rfl).mpr ⟨.ofSeconds 1500000000, rfl, rfl⟩, ?_⟩
  rw [hleaf, hbefore, hafter]
  decide +kernel

end CertRotation
