import CertRotation.Proofs.Rotation.History

namespace CertRotation

/-- Every write of material that succeeded is followed by a write of a bundle that succeeded. -/
def ManagerTranscript.PublishesAllStored (transcript : ManagerTranscript) : Prop :=
  ∀ before id material rest, transcript = before ++ ⟨.put id material, .ok ()⟩ :: rest →
    ∃ bundle, ⟨.putBundle id bundle, .ok ()⟩ ∈ rest

theorem ManagerExchange.eq_put_of_stores {exchange : ManagerExchange}
    (h : ManagerExchange.stores exchange = true) :
    ∃ id material, exchange = ⟨.put id material, .ok ()⟩ := by
  rcases exchange with ⟨request, answer⟩
  cases request with
  | put id material =>
      rcases answer with failure | _
      · cases h
      · exact ⟨id, material, rfl⟩
  | _ => cases h

theorem ManagerTranscript.not_stores_of_publishesAllStored {past : ManagerTranscript}
    (h : past.sinceCached.PublishesAllStored) :
    ∀ exchange ∈ past.sinceCached, ManagerExchange.stores exchange = false := by
  intro exchange hmem
  cases hstores : ManagerExchange.stores exchange with
  | false => rfl
  | true =>
      obtain ⟨id, material, rfl⟩ := ManagerExchange.eq_put_of_stores hstores
      obtain ⟨before, rest, hsplit⟩ := List.append_of_mem hmem
      obtain ⟨bundle, hbundle⟩ := h before id material rest hsplit
      have hcaches := not_caches_of_mem_sinceCached
        (hsplit ▸ List.mem_append_right before (List.mem_cons_of_mem _ hbundle))
      cases hcaches

namespace RotationManager

variable {manager next : RotationManager} {ca : Certificate} {failure : Failure}
  {transcript : ManagerTranscript}

theorem Loads.eq_of_cached {result : Except Failure Certificate × RotationManager}
    (h : manager.Loads transcript result) (hca : manager.ca = some ca) :
    transcript = [] ∧ result = (.ok ca, manager) := by
  cases h with
  | cached hcached =>
      obtain rfl := Option.some.inj (hca.symm.trans hcached)
      exact ⟨rfl, rfl⟩
  | unread hempty => simp [hca] at hempty
  | found hempty => simp [hca] at hempty
  | made hempty => simp [hca] at hempty

theorem Waits.of_error (h : manager.Waits transcript (.error failure, next)) :
    next.ca = manager.ca ∧ ∀ exchange ∈ transcript, ManagerExchange.caches exchange = false := by
  generalize hend : (Except.error failure, next) = ending at h
  cases h with
  | interrupted hwaiting => cases hend
  | @rotated waiting rest result next hwaiting hrotates =>
      cases result with
      | ok ca => cases hend
      | error failure =>
          cases hend
          obtain ⟨-, hca, hrest⟩ := hrotates.of_error
          refine ⟨hca, ?_⟩
          intro exchange hmem
          rcases List.mem_append.mp hmem with hmem | hmem
          · exact (ManagerExchange.not_caches_of_not_isCollaboration (hwaiting exchange hmem)).1
          · exact hrest exchange hmem

theorem Cycles.of_error (h : manager.Cycles transcript (.error failure, next))
    (hca : manager.ca = some ca) :
    next.ca = some ca ∧ ∀ exchange ∈ transcript, ManagerExchange.caches exchange = false := by
  have hasked : ∀ {rest : ManagerTranscript},
      (∀ exchange ∈ rest, ManagerExchange.caches exchange = false) →
        ∀ exchange ∈ (⟨.isCancelled, false⟩ :: rest : ManagerTranscript),
          ManagerExchange.caches exchange = false := by
    intro rest hrest exchange hmem
    rcases List.mem_cons.mp hmem with rfl | hmem
    · rfl
    · exact hrest exchange hmem
  generalize hend : (Except.error failure, next) = ending at h
  cases h with
  | cancelled => cases hend
  | @retried rest result next hpending hrotates =>
      cases result with
      | ok ca => cases hend
      | error failure =>
          cases hend
          obtain ⟨-, hnext, hrest⟩ := hrotates.of_error
          exact ⟨hnext.trans hca, hasked hrest⟩
  | unloaded hpending hloads =>
      obtain ⟨-, heq⟩ := hloads.eq_of_cached hca
      cases heq
  | waited hpending hloads hwaits =>
      obtain ⟨rfl, heq⟩ := hloads.eq_of_cached hca
      cases heq
      cases hend
      obtain ⟨hnext, hrest⟩ := hwaits.of_error
      exact ⟨hnext.trans hca, hasked hrest⟩

end RotationManager

/-- Between calls, the authority that a manager holds is published. If all that was stored since it
was taken up has been published, the stored leaf is its own. And a call that fails leaves both the
authority and the published bundles as they were. -/
theorem published_of_reaches {first manager : RotationManager} {start held : Collaborators}
    {past : ManagerTranscript} {ca : Certificate}
    (hreaches : Reaches first start manager held past) (hca : manager.ca = some ca) :
    held.Publishes first.identity ca ∧
      (past.sinceCached.PublishesAllStored → held.StoresLeafOf first.identity ca) ∧
      ∀ transcript failure next last, held.Leads transcript last →
        (manager.loadOrGenerate.Yields transcript (.error failure, next) ∨
          manager.cycle.Yields transcript (.error failure, next)) →
        next.ca = some ca ∧ last.bundles = held.bundles := by
  have hcoherent := isCoherent_of_reaches hreaches
  refine ⟨hcoherent.published ca hca, ?_, ?_⟩
  · intro hpublishes
    exact hcoherent.stored ca hca (ManagerTranscript.not_stores_of_publishesAllStored hpublishes)
  · rintro transcript failure next last hleads (hrun | hrun)
    · obtain ⟨-, heq⟩ := (RotationManager.loads_of_yields hrun).eq_of_cached hca
      cases heq
    · obtain ⟨hnext, hcaches⟩ := (RotationManager.cycles_of_yields hrun).of_error hca
      exact ⟨hnext, (Collaborators.eq_of_leads_of_not_caches hleads hcaches).1⟩

namespace Sample

theorem yields_waitAndRotate {manager : RotationManager} {transcript : ManagerTranscript}
    {result : Except Failure CycleOutcome × RotationManager} (ca : Certificate)
    (h : manager.rotated.Yields transcript result) :
    ∃ waiting, (manager.waitAndRotate ca).Yields (waiting ++ transcript) result ∧
      ∀ exchange ∈ waiting, exchange.request.isCollaboration = false := by
  have hcheck : Program.Yields (do
      if ← ManagerRequest.ask .isCancelled then return (.ok .cancelled, manager)
      manager.rotated) (⟨.isCancelled, false⟩ :: transcript) result := .ask h
  let deadline := offsetInto ca.notBefore (validityWindow ca.notBefore ca.notAfter) .zero
  by_cases hearly : now < deadline
  · refine ⟨[⟨.jitter (validityWindow ca.notBefore ca.notAfter), .zero⟩, ⟨.now, now⟩,
      ⟨.sleep (deadline.since now), false⟩, ⟨.isCancelled, false⟩], .ask (.ask ?_),
      by simp [ManagerRequest.isCollaboration]⟩
    change Program.Yields (ite (now < deadline) _ _) _ _
    rw [if_pos hearly]
    exact .ask hcheck
  · refine ⟨[⟨.jitter (validityWindow ca.notBefore ca.notAfter), .zero⟩, ⟨.now, now⟩,
      ⟨.isCancelled, false⟩], .ask (.ask ?_), by simp [ManagerRequest.isCollaboration]⟩
    change Program.Yields (ite (now < deadline) _ _) _ _
    rw [if_neg hearly]
    exact hcheck

end Sample

theorem published_of_reaches_sample :
    ∃ ca transcript failure next,
      Reaches Sample.manager Sample.held { Sample.manager with ca := some ca } Sample.held
        Sample.loading ∧
      Sample.held.Publishes Sample.manager.identity ca ∧
      Sample.held.StoresLeafOf Sample.manager.identity ca ∧
      ({ Sample.manager with ca := some ca } : RotationManager).cycle.Yields transcript
        (.error failure, next) ∧ next.ca = some ca := by
  obtain ⟨ca, hrun⟩ := Sample.yields_loading
  have hkeyless : ({ Sample.manager with ca := some ca } : RotationManager).rotated.Yields
      [⟨.now, Sample.now⟩, ⟨.newKey, .error .keyGeneration⟩]
      (.error .keyGeneration, { Sample.manager with ca := some ca }) := .ask (.ask (.done _))
  obtain ⟨waiting, hwaits, hquiet⟩ := Sample.yields_waitAndRotate ca hkeyless
  have hcycle : ({ Sample.manager with ca := some ca } : RotationManager).cycle.Yields
      (⟨.isCancelled, false⟩ :: (waiting ++
        [⟨.now, Sample.now⟩, ⟨.newKey, .error .keyGeneration⟩]))
      (.error .keyGeneration, { Sample.manager with ca := some ca }) := .ask hwaits
  have hleads : Sample.held.Leads (⟨.isCancelled, false⟩ :: (waiting ++
      [⟨.now, Sample.now⟩, ⟨.newKey, .error .keyGeneration⟩])) Sample.held := by
    apply Collaborators.leads_of_quiet
    intro exchange hmem
    simp only [List.mem_cons, List.mem_append, List.not_mem_nil, or_false] at hmem
    rcases hmem with rfl | hmem | rfl | rfl
    · rfl
    · exact hquiet exchange hmem
    · rfl
    · rfl
  have hreaches : Reaches Sample.manager Sample.held { Sample.manager with ca := some ca }
      Sample.held Sample.loading := .load (.start rfl rfl) hrun Sample.leads_loading
  obtain ⟨hpublishes, hstores, hfails⟩ := published_of_reaches hreaches rfl
  refine ⟨ca, _, _, _, hreaches, hpublishes, hstores ?_, hcycle,
    (hfails _ _ _ Sample.held hleads (.inr hcycle)).1⟩
  -- nothing was stored since the bundle was read
  intro before id material rest hsplit
  have hmem : ⟨.put id material, .ok ()⟩ ∈ Sample.loading.sinceCached :=
    hsplit ▸ List.mem_append_right before (List.mem_cons_self)
  have hsince : Sample.loading.sinceCached = [⟨.now, Sample.now⟩] := rfl
  rw [hsince] at hmem
  cases List.mem_singleton.mp hmem

end CertRotation
