import CertRotation.Proofs.Rotation.Calls

namespace CertRotation

/-- The states of a manager and of its collaborators between calls, with all exchanges so far. A
manager starts with nothing loaded and nothing pending, and the collaborators may hold anything. -/
inductive Reaches (first : RotationManager) (start : Collaborators) :
    RotationManager → Collaborators → ManagerTranscript → Prop
  | start (hca : first.ca = none) (hpending : first.pending = none) :
      Reaches first start first start []
  | load {manager next : RotationManager} {held last : Collaborators}
      {past transcript : ManagerTranscript} {result : Except Failure Certificate}
      (hreaches : Reaches first start manager held past)
      (hrun : manager.loadOrGenerate.Yields transcript (result, next))
      (hleads : held.Leads transcript last) : Reaches first start next last (past ++ transcript)
  | cycle {manager next : RotationManager} {held last : Collaborators}
      {past transcript : ManagerTranscript} {result : Except Failure CycleOutcome}
      (hreaches : Reaches first start manager held past)
      (hrun : manager.cycle.Yields transcript (result, next))
      (hleads : held.Leads transcript last) : Reaches first start next last (past ++ transcript)

/-- A property of a manager, its collaborators and all exchanges so far that work of every kind
keeps: exchanges with neither collaborator, reads that find nothing to take up, a read that finds an
authority, and rotations. Only a manager without an authority reads. -/
structure IsKept (Holds : RotationManager → Collaborators → ManagerTranscript → Prop) : Prop where
  quiet {manager : RotationManager} {held : Collaborators} {past waiting : ManagerTranscript} :
    Holds manager held past →
      (∀ exchange ∈ waiting, exchange.request.isCollaboration = false) →
        Holds manager held (past ++ waiting)
  unread {manager : RotationManager} {held : Collaborators} {past reads : ManagerTranscript} :
    Holds manager held past → manager.ca = none →
      (∀ exchange ∈ reads, exchange.request.isWrite = false) → Holds manager held (past ++ reads)
  found {manager : RotationManager} {held : Collaborators} {past : ManagerTranscript}
      {material : TlsMaterial} {bundle : Octets} {now : Instant} {leaf ca : Certificate} :
    Holds manager held past → manager.ca = none →
      held.materials.get? manager.identity = some material →
        held.bundles.get? manager.identity = some bundle →
          material.verifyChain bundle now = .ok (leaf, ca) →
            Holds { manager with ca := some ca } held
              (past ++ [⟨.get manager.identity, .ok (some material)⟩,
                ⟨.getBundle manager.identity, .ok (some bundle)⟩, ⟨.now, now⟩])
  rotates {manager next : RotationManager} {held last : Collaborators}
      {past transcript : ManagerTranscript} {result : Except Failure Certificate} :
    Holds manager held past → manager.Rotates transcript (result, next) →
      held.Leads transcript last → Holds next last (past ++ transcript)

namespace IsKept

variable {Holds : RotationManager → Collaborators → ManagerTranscript → Prop}
  {first manager next : RotationManager} {start held last : Collaborators}
  {past transcript : ManagerTranscript}

theorem loads {result : Except Failure Certificate} (kept : IsKept Holds)
    (h : Holds manager held past) (hloads : manager.Loads transcript (result, next))
    (hleads : held.Leads transcript last) : Holds next last (past ++ transcript) := by
  cases hloads with
  | cached hca =>
      obtain rfl := Collaborators.leads_nil_iff.mp hleads
      rw [List.append_nil]
      exact h
  | unread hca hreads =>
      obtain rfl := Collaborators.eq_of_leads hleads hreads
      exact kept.unread h hca hreads
  | found hca hchain =>
      simp only [Collaborators.leads_cons_iff, Collaborators.leads_nil_iff] at hleads
      obtain ⟨hmaterial, hbundle, -, rfl⟩ := hleads
      exact kept.found h hca (Eq.symm hmaterial) (Eq.symm hbundle) hchain
  | made hca hreads hrotates =>
      obtain ⟨between, hbefore, hrest⟩ := Collaborators.leads_append_iff.mp hleads
      obtain rfl := Collaborators.eq_of_leads hbefore hreads
      rw [← List.append_assoc]
      exact kept.rotates (kept.unread h hca hreads) hrotates hrest

theorem waits {result : Except Failure CycleOutcome} (kept : IsKept Holds)
    (h : Holds manager held past) (hwaits : manager.Waits transcript (result, next))
    (hleads : held.Leads transcript last) : Holds next last (past ++ transcript) := by
  cases hwaits with
  | interrupted hwaiting =>
      rw [← List.append_nil transcript] at hleads
      obtain rfl := Collaborators.leads_nil_iff.mp
        (Collaborators.leads_of_quiet_append hwaiting hleads)
      exact kept.quiet h hwaiting
  | rotated hwaiting hrotates =>
      have hrest := Collaborators.leads_of_quiet_append hwaiting hleads
      rw [← List.append_assoc]
      exact kept.rotates (kept.quiet h hwaiting) hrotates hrest

theorem cycles {result : Except Failure CycleOutcome} (kept : IsKept Holds)
    (h : Holds manager held past) (hcycles : manager.Cycles transcript (result, next))
    (hleads : held.Leads transcript last) : Holds next last (past ++ transcript) := by
  have hasked : ∀ {cancelled : Bool},
      Holds manager held (past ++ [⟨.isCancelled, cancelled⟩]) :=
    kept.quiet h (by simp [ManagerRequest.isCollaboration])
  cases hcycles with
  | cancelled =>
      obtain ⟨-, rfl⟩ := Collaborators.leads_singleton_iff.mp hleads
      exact hasked
  | retried hpending hrotates =>
      obtain ⟨-, hrest⟩ := Collaborators.leads_cons_iff.mp hleads
      rw [List.append_cons]
      exact kept.rotates hasked hrotates hrest
  | unloaded hpending hloads =>
      obtain ⟨-, hrest⟩ := Collaborators.leads_cons_iff.mp hleads
      rw [List.append_cons]
      exact kept.loads hasked hloads hrest
  | waited hpending hloads hwaits =>
      obtain ⟨-, hrest⟩ := Collaborators.leads_cons_iff.mp hleads
      obtain ⟨loaded, hloading, hwaiting⟩ := Collaborators.leads_append_iff.mp hrest
      rw [List.append_cons, ← List.append_assoc]
      exact kept.waits (kept.loads hasked hloads hloading) hwaits hwaiting

/-- What work of every kind keeps holds throughout a history. -/
theorem of_reaches (kept : IsKept Holds)
    (hstart : first.ca = none → first.pending = none → Holds first start [])
    (h : Reaches first start manager held past) : Holds manager held past := by
  induction h with
  | start hca hpending => exact hstart hca hpending
  | load hreaches hrun hleads ih =>
      exact kept.loads ih (RotationManager.loads_of_yields hrun) hleads
  | cycle hreaches hrun hleads ih =>
      exact kept.cycles ih (RotationManager.cycles_of_yields hrun) hleads

end IsKept

namespace Collaborators

/-- The published bundle has a certificate with the encoding of an authority. -/
def Publishes (held : Collaborators) (id : WebhookIdentity) (ca : Certificate) : Prop :=
  ∃ bundle pool root, held.bundles.get? id = some bundle ∧ TrustPool.ofPem bundle = .ok pool ∧
    root ∈ pool.roots ∧ root.der = ca.der

/-- The stored material begins with a leaf that an authority issued. -/
def StoresLeafOf (held : Collaborators) (id : WebhookIdentity) (ca : Certificate) : Prop :=
  ∃ material leaf chain, held.materials.get? id = some material ∧
    Certificate.decodePem material.certPem = .ok (leaf :: chain) ∧ leaf.IsIssuedBy ca

/-- Stored material and published bundle hold together at a time, and the stored leaf was issued by
a certificate of the bundle that has the encoding of an authority. -/
def HoldsTogether (held : Collaborators) (id : WebhookIdentity) (ca : Certificate)
    (t : Instant) : Prop :=
  ∃ material bundle leaf chain pool root, held.materials.get? id = some material ∧
    held.bundles.get? id = some bundle ∧ material.verify bundle t = .ok () ∧
    Certificate.decodePem material.certPem = .ok (leaf :: chain) ∧
    TrustPool.ofPem bundle = .ok pool ∧ root ∈ pool.roots ∧ leaf.IsIssuedBy root ∧
    root.der = ca.der

/-- What is held after a generation has been written. -/
def withGeneration (held : Collaborators) (id : WebhookIdentity)
    (generation : Generation) : Collaborators where
  materials := held.materials.insert id generation.material
  bundles := held.bundles.insert id generation.bundle

variable {held : Collaborators} {id : WebhookIdentity} {material : TlsMaterial} {bundle : Octets}
  {t : Instant} {leaf ca : Certificate}

theorem holdsTogether_of_verifyChain (hmaterial : held.materials.get? id = some material)
    (hbundle : held.bundles.get? id = some bundle)
    (hchain : material.verifyChain bundle t = .ok (leaf, ca)) : held.HoldsTogether id ca t := by
  obtain ⟨chain, pool, hcerts, hpool, hroot, hissued⟩ := TlsMaterial.issued_of_verifyChain hchain
  exact ⟨material, bundle, leaf, chain, pool, ca, hmaterial, hbundle,
    TlsMaterial.verify_eq_ok_iff.mpr ⟨leaf, ca, hchain⟩, hcerts, hpool, hroot, hissued, rfl⟩

theorem publishes_of_verifyChain (hbundle : held.bundles.get? id = some bundle)
    (hchain : material.verifyChain bundle t = .ok (leaf, ca)) : held.Publishes id ca := by
  obtain ⟨-, pool, -, hpool, hroot, -⟩ := TlsMaterial.issued_of_verifyChain hchain
  exact ⟨bundle, pool, ca, hbundle, hpool, hroot, rfl⟩

theorem storesLeafOf_of_verifyChain (hmaterial : held.materials.get? id = some material)
    (hchain : material.verifyChain bundle t = .ok (leaf, ca)) : held.StoresLeafOf id ca := by
  obtain ⟨chain, -, hcerts, -, -, hissued⟩ := TlsMaterial.issued_of_verifyChain hchain
  exact ⟨material, leaf, chain, hmaterial, hcerts, hissued⟩

end Collaborators

/-- A manager can take up the authority of a bundle after it has read the bundle or written it. -/
def ManagerExchange.caches : ManagerExchange → Bool
  | ⟨.getBundle _, .ok (some _)⟩ | ⟨.putBundle _ _, .ok ()⟩ => true
  | _ => false

/-- Whether an exchange has replaced the stored material. -/
def ManagerExchange.stores : ManagerExchange → Bool
  | ⟨.put _ _, .ok ()⟩ => true
  | _ => false

theorem ManagerExchange.not_caches_of_not_isCollaboration {exchange : ManagerExchange}
    (h : exchange.request.isCollaboration = false) :
    caches exchange = false ∧ stores exchange = false := by
  rcases exchange with ⟨request, answer⟩
  cases request <;> first | exact ⟨rfl, rfl⟩ | cases h

theorem Collaborators.eq_of_leads_of_not_caches {held last : Collaborators}
    {transcript : ManagerTranscript} (h : held.Leads transcript last)
    (hcaches : ∀ exchange ∈ transcript, ManagerExchange.caches exchange = false) :
    last.bundles = held.bundles ∧
      ((∀ exchange ∈ transcript, ManagerExchange.stores exchange = false) →
        last.materials = held.materials) := by
  induction h with
  | nil held => exact ⟨rfl, fun _ => rfl⟩
  | @cons held last exchange rest hallows hrest ih =>
      obtain ⟨hbundles, hmaterials⟩ := ih fun exchange hmem => hcaches exchange (by simp [hmem])
      have hstep : (held.after exchange).bundles = held.bundles ∧
          (ManagerExchange.stores exchange = false →
            (held.after exchange).materials = held.materials) := by
        have hexchange := hcaches exchange (by simp)
        rcases exchange with ⟨request, answer⟩
        cases request with
        | put id material =>
            rcases answer with failure | _
            · exact ⟨rfl, fun _ => rfl⟩
            · exact ⟨rfl, fun hstores => by cases hstores⟩
        | putBundle id bundle =>
            rcases answer with failure | _
            · exact ⟨rfl, fun _ => rfl⟩
            · cases hexchange
        | _ => exact ⟨rfl, fun _ => rfl⟩
      constructor
      · rw [hbundles, hstep.1]
      · intro hstores
        rw [hmaterials fun exchange hmem => hstores exchange (by simp [hmem]),
          hstep.2 (hstores _ (by simp))]

namespace ManagerTranscript

/-- The exchanges since an authority was last taken up. -/
def sinceCached (transcript : ManagerTranscript) : ManagerTranscript :=
  (transcript.reverse.takeWhile fun exchange => !ManagerExchange.caches exchange).reverse

variable {past rest : ManagerTranscript}

theorem sinceCached_append (hrest : ∀ exchange ∈ rest, ManagerExchange.caches exchange = false) :
    sinceCached (past ++ rest) = sinceCached past ++ rest := by
  rw [sinceCached, List.reverse_append, List.takeWhile_append_of_pos]
  · rw [List.reverse_append, List.reverse_reverse, sinceCached]
  · intro exchange hmem
    simp [hrest exchange (List.mem_reverse.mp hmem)]

theorem not_caches_of_mem_sinceCached {exchange : ManagerExchange}
    (h : exchange ∈ sinceCached past) : ManagerExchange.caches exchange = false := by
  rw [sinceCached, List.mem_reverse] at h
  simpa using List.all_eq_true.mp List.all_takeWhile exchange h

end ManagerTranscript

namespace RotationManager

/-- The pending generation of a manager, if there is one, is sound. -/
def IsSound (manager : RotationManager) : Prop :=
  ∀ generation, manager.pending = some generation → generation.IsSound

theorem isSound_of_nextGeneration {manager : RotationManager} {now : Instant}
    {supply : ManagerTranscript} {generation : Generation} (hsound : manager.IsSound)
    (h : (manager.nextGeneration now).run.Yields supply (.ok generation)) :
    generation.IsSound ∧ generation.ca.isValidAt now = true := by
  rcases nextGeneration_yields h with ⟨_, hpending, hvalid, -, heq⟩ | ⟨-, hmint⟩
  · cases heq
    exact ⟨hsound generation hpending, hvalid⟩
  · exact Generation.isSound_of_mint hmint

theorem eq_withGeneration_of_leads {manager : RotationManager} {now : Instant}
    {supply : ManagerTranscript} {generation : Generation} {held last : Collaborators}
    (hnext : (manager.nextGeneration now).run.Yields supply (.ok generation))
    (hleads : held.Leads
      (⟨.now, now⟩ :: supply ++ [⟨.put manager.identity generation.material, .ok ()⟩,
        ⟨.putBundle manager.identity generation.bundle, .ok ()⟩]) last) :
    last = held.withGeneration manager.identity generation := by
  have hwrites := Collaborators.leads_of_quiet_append (quiet_of_nextGeneration hnext) hleads
  simp only [Collaborators.leads_cons_iff, Collaborators.leads_nil_iff] at hwrites
  exact hwrites.2.2

theorem Rotates.committed_of_ok {manager next : RotationManager} {transcript : ManagerTranscript}
    {ca : Certificate} {held last : Collaborators} (h : manager.Rotates transcript (.ok ca, next))
    (hsound : manager.IsSound) (hleads : held.Leads transcript last) :
    ∃ now material bundle leaf, transcript.lastReading = some now ∧ next.ca = some ca ∧
      last.materials.get? manager.identity = some material ∧
      last.bundles.get? manager.identity = some bundle ∧
      material.verifyChain bundle now = .ok (leaf, ca) := by
  cases h with
  | @committed now supply generation hnext =>
      obtain ⟨hgeneration, hvalid⟩ := isSound_of_nextGeneration hsound hnext
      obtain ⟨leaf, hchain⟩ := hgeneration now hvalid
      have hsupply := supply_of_nextGeneration hnext
      obtain rfl := eq_withGeneration_of_leads hnext hleads
      refine ⟨now, generation.material, generation.bundle, leaf, ?_, rfl, ?_, ?_, hchain⟩
      · apply ManagerTranscript.lastReading_cons_of_quiet
        intro exchange hmem
        rcases List.mem_append.mp hmem with hmem | hmem
        · exact (hsupply exchange hmem).ne_now
        · simp only [List.mem_cons, List.not_mem_nil, or_false] at hmem
          rcases hmem with rfl | rfl
          · exact ManagerRequest.noConfusion
          · exact ManagerRequest.noConfusion
      · exact IdentityMap.get?_insert_self _ _ _
      · exact IdentityMap.get?_insert_self _ _ _

theorem Rotates.of_ok {manager next : RotationManager} {transcript : ManagerTranscript}
    {ca : Certificate} (h : manager.Rotates transcript (.ok ca, next)) :
    next.identity = manager.identity ∧ next.pending = none := by
  cases h with
  | committed hnext => exact ⟨rfl, rfl⟩

theorem Rotates.of_error {manager next : RotationManager} {transcript : ManagerTranscript}
    {failure : Failure} (h : manager.Rotates transcript (.error failure, next)) :
    next.identity = manager.identity ∧ next.ca = manager.ca ∧
      ∀ exchange ∈ transcript, ManagerExchange.caches exchange = false := by
  have hquiet : ∀ {now : Instant} {supply writes : ManagerTranscript}
      {result : Except Failure Generation},
      (manager.nextGeneration now).run.Yields supply result →
        (∀ exchange ∈ writes, ManagerExchange.caches exchange = false) →
          ∀ exchange ∈ ⟨.now, now⟩ :: supply ++ writes,
            ManagerExchange.caches exchange = false := by
    intro now supply writes result hnext hwrites exchange hmem
    rcases List.mem_append.mp hmem with hmem | hmem
    · exact (ManagerExchange.not_caches_of_not_isCollaboration
        (quiet_of_nextGeneration hnext exchange hmem)).1
    · exact hwrites exchange hmem
  cases h with
  | unmade hnext =>
      refine ⟨rfl, rfl, ?_⟩
      simpa using @hquiet _ _ [] _ hnext (by simp)
  | unstored hnext =>
      exact ⟨rfl, rfl, hquiet hnext (by simp [ManagerExchange.caches])⟩
  | unpublished hnext =>
      exact ⟨rfl, rfl, hquiet hnext (by simp [ManagerExchange.caches])⟩

theorem Rotates.isSound {manager next : RotationManager} {transcript : ManagerTranscript}
    {result : Except Failure Certificate} (h : manager.Rotates transcript (result, next))
    (hsound : manager.IsSound) : next.IsSound := by
  rintro generation hpending
  cases h with
  | unmade hnext => cases hpending
  | unstored hnext =>
      cases hpending
      exact (isSound_of_nextGeneration hsound hnext).1
  | unpublished hnext =>
      cases hpending
      exact (isSound_of_nextGeneration hsound hnext).1
  | committed hnext => cases hpending

end RotationManager

/-- What holds between calls: the manager still works for the same webhook, what is pending is
sound, the current authority is published, and the stored leaf is its own as long as nothing has
been stored since. -/
structure IsCoherent (first manager : RotationManager) (held : Collaborators)
    (past : ManagerTranscript) : Prop where
  identity : manager.identity = first.identity
  isSound : manager.IsSound
  published (ca : Certificate) : manager.ca = some ca → held.Publishes first.identity ca
  stored (ca : Certificate) : manager.ca = some ca →
    (∀ exchange ∈ past.sinceCached, ManagerExchange.stores exchange = false) →
      held.StoresLeafOf first.identity ca

namespace IsCoherent

variable {first manager next : RotationManager} {held last : Collaborators}
  {past transcript : ManagerTranscript}

/-- As long as no authority is taken up, the bundle stays, and a write of material is all that can
part the stored leaf from the authority. -/
theorem append (h : IsCoherent first manager held past)
    (hcaches : ∀ exchange ∈ transcript, ManagerExchange.caches exchange = false)
    (hleads : held.Leads transcript last) (hidentity : next.identity = manager.identity)
    (hca : next.ca = manager.ca) (hsound : next.IsSound) :
    IsCoherent first next last (past ++ transcript) := by
  obtain ⟨hbundles, hmaterials⟩ := Collaborators.eq_of_leads_of_not_caches hleads hcaches
  refine ⟨hidentity.trans h.identity, hsound, ?_, ?_⟩
  · intro ca hsome
    rw [Collaborators.Publishes, hbundles]
    exact h.published ca (hca ▸ hsome)
  · intro ca hsome hstores
    rw [ManagerTranscript.sinceCached_append hcaches] at hstores
    rw [Collaborators.StoresLeafOf,
      hmaterials fun exchange hmem => hstores exchange (List.mem_append_right _ hmem)]
    exact h.stored ca (hca ▸ hsome) fun exchange hmem =>
      hstores exchange (List.mem_append_left _ hmem)

theorem of_ca_eq_none (hidentity : manager.identity = first.identity) (hsound : manager.IsSound)
    (hca : manager.ca = none) : IsCoherent first manager held past := by
  refine ⟨hidentity, hsound, ?_, ?_⟩
  · intro ca hsome
    rw [hca] at hsome
    cases hsome
  · intro ca hsome
    rw [hca] at hsome
    cases hsome

theorem of_verifyChain {material : TlsMaterial} {bundle : Octets} {now : Instant}
    {leaf ca : Certificate} (hidentity : manager.identity = first.identity)
    (hsound : manager.IsSound) (hca : manager.ca = some ca)
    (hmaterial : held.materials.get? first.identity = some material)
    (hbundle : held.bundles.get? first.identity = some bundle)
    (hchain : material.verifyChain bundle now = .ok (leaf, ca)) :
    IsCoherent first manager held past := by
  refine ⟨hidentity, hsound, ?_, ?_⟩
  · intro ca' hsome
    obtain rfl : ca = ca' := Option.some.inj (hca.symm.trans hsome)
    exact Collaborators.publishes_of_verifyChain hbundle hchain
  · intro ca' hsome _
    obtain rfl : ca = ca' := Option.some.inj (hca.symm.trans hsome)
    exact Collaborators.storesLeafOf_of_verifyChain hmaterial hchain

theorem rotates {result : Except Failure Certificate} (h : IsCoherent first manager held past)
    (hrotates : manager.Rotates transcript (result, next)) (hleads : held.Leads transcript last) :
    IsCoherent first next last (past ++ transcript) := by
  cases result with
  | ok ca =>
      obtain ⟨now, material, bundle, leaf, -, hca, hmaterial, hbundle, hchain⟩ :=
        hrotates.committed_of_ok h.isSound hleads
      obtain ⟨hidentity, hpending⟩ := hrotates.of_ok
      rw [h.identity] at hmaterial hbundle
      refine of_verifyChain (hidentity.trans h.identity) ?_ hca hmaterial hbundle hchain
      rw [RotationManager.IsSound, hpending]
      simp
  | error failure =>
      obtain ⟨hidentity, hca, hcaches⟩ := hrotates.of_error
      exact h.append hcaches hleads hidentity hca (hrotates.isSound h.isSound)

theorem isKept (first : RotationManager) : IsKept (IsCoherent first) where
  quiet h hwaiting :=
    h.append (fun exchange hmem =>
      (ManagerExchange.not_caches_of_not_isCollaboration (hwaiting exchange hmem)).1)
      (Collaborators.leads_of_quiet hwaiting) rfl rfl h.isSound
  unread h hca _ := of_ca_eq_none h.identity h.isSound hca
  found h _ hmaterial hbundle hchain :=
    of_verifyChain h.identity h.isSound rfl (h.identity ▸ hmaterial) (h.identity ▸ hbundle) hchain
  rotates h hrotates hleads := h.rotates hrotates hleads

end IsCoherent

theorem isCoherent_of_reaches {first manager : RotationManager} {start held : Collaborators}
    {past : ManagerTranscript} (h : Reaches first start manager held past) :
    IsCoherent first manager held past := by
  refine (IsCoherent.isKept first).of_reaches ?_ h
  intro hca hpending
  apply IsCoherent.of_ca_eq_none rfl _ hca
  rw [RotationManager.IsSound, hpending]
  simp

namespace Sample

/-- A manager for the host of the sample leaf. -/
def manager : RotationManager := .new ⟨"hook", "ops", .validating⟩ (.ofSeconds 3600)

def held : Collaborators where
  materials := IdentityMap.empty.insert manager.identity material
  bundles := IdentityMap.empty.insert manager.identity bundle

/-- The exchanges of a call that finds the sample. -/
def loading : ManagerTranscript :=
  [⟨.get manager.identity, .ok (some material)⟩,
    ⟨.getBundle manager.identity, .ok (some bundle)⟩, ⟨.now, now⟩]

theorem leads_loading : held.Leads loading held :=
  .cons (IdentityMap.get?_insert_self _ _ _).symm
    (.cons (IdentityMap.get?_insert_self _ _ _).symm (.cons trivial (.nil _)))

theorem yields_loading : ∃ ca, manager.loadOrGenerate.Yields loading
    (.ok ca, { manager with ca := some ca }) := by
  obtain ⟨leaf, ca, hchain⟩ := verifyChain
  have hfound : (RotationManager.loadExisting manager.identity).run.Yields loading
      (.ok (some ca)) := by
    refine .ask (.ask ?_)
    apply Program.yields_run_lift_perform_bind_iff.mpr
    refine ⟨now, [], rfl, ?_⟩
    simp only [hchain]
    exact .done _
  exact ⟨ca, Program.yields_bind_iff.mpr ⟨_, loading, [], rfl, hfound, .done _⟩⟩

end Sample

end CertRotation
