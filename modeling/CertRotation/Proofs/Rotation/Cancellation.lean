import CertRotation.Proofs.Rotation.Cache
import CertRotation.Proofs.Rotation.Pending
import CertRotation.Proofs.Rotation.Restart

namespace CertRotation

namespace RotationManager

variable {manager next : RotationManager} {transcript : ManagerTranscript} {ca : Certificate}
  {held last : Collaborators}

/-- A cycle that has not been cancelled at its start begins without an authority and without a
pending generation, and finds no authority. -/
def FindsNothing (manager : RotationManager) (transcript : ManagerTranscript) : Prop :=
  manager.ca = none ∧ manager.pending = none ∧ ∃ reads rest,
    transcript = ⟨.isCancelled, false⟩ :: (reads ++ rest) ∧
      (loadExisting manager.identity).run.Yields reads (.ok none)

theorem FindsNothing.not_found {loading rest : ManagerTranscript}
    (h : manager.FindsNothing (⟨.isCancelled, false⟩ :: (loading ++ rest))) :
    ¬(loadExisting manager.identity).run.Yields loading (.ok (some ca)) := by
  intro hfound
  obtain ⟨-, -, reads, after, hsplit, hnone⟩ := h
  obtain ⟨-, heq, -⟩ := hfound.unique hnone (List.cons.inj hsplit).2
  cases heq

theorem loadOrGenerate_yields_ok (hempty : manager.ca = none)
    (h : manager.loadOrGenerate.Yields transcript (.ok ca, next)) :
    (loadExisting manager.identity).run.Yields transcript (.ok (some ca)) ∨
      ∃ reads rest, transcript = reads ++ rest ∧
        (loadExisting manager.identity).run.Yields reads (.ok none) ∧
        manager.Rotates rest (.ok ca, next) := by
  rw [loadOrGenerate, hempty] at h
  obtain ⟨loaded, reads, rest, rfl, hreads, hrest⟩ := Program.yields_bind_iff.mp h
  cases loaded with
  | error failure =>
      obtain ⟨-, heq⟩ := Program.yields_pure_iff.mp hrest
      cases heq
  | ok found =>
      cases found with
      | none => exact .inr ⟨reads, rest, rfl, hreads, rotates_of_yields hrest⟩
      | some root =>
          obtain ⟨rfl, heq⟩ := Program.yields_pure_iff.mp hrest
          cases heq
          rw [List.append_nil]
          exact .inl hreads

theorem cycle_yields_cancelled (h : manager.cycle.Yields transcript (.ok .cancelled, next)) :
    transcript = [⟨.isCancelled, true⟩] ∧ next = manager ∨
      manager.pending = none ∧ ∃ ca loading waiting,
        transcript = ⟨.isCancelled, false⟩ :: (loading ++ waiting) ∧
        manager.loadOrGenerate.Yields loading (.ok ca, next) ∧
        ∀ exchange ∈ waiting, exchange.request.isCollaboration = false := by
  obtain ⟨cancelled, _, rfl, hrest⟩ := Program.yields_perform_bind_iff.mp h
  cases cancelled with
  | true =>
      obtain ⟨rfl, heq⟩ := Program.yields_pure_iff.mp hrest
      cases heq
      exact .inl ⟨rfl, rfl⟩
  | false =>
      cases hpending : manager.pending with
      | some generation =>
          simp only [hpending] at hrest
          obtain ⟨rotation, _, -, heq⟩ := rotated_yields hrest
          cases rotation with
          | error failure => cases heq
          | ok root => cases heq
      | none =>
          simp only [hpending] at hrest
          obtain ⟨⟨loaded, between⟩, loading, waiting, rfl, hloading, hloaded⟩ :=
            Program.yields_bind_iff.mp hrest
          cases loaded with
          | error failure =>
              obtain ⟨-, heq⟩ := Program.yields_pure_iff.mp hloaded
              cases heq
          | ok root =>
              generalize hend : (Except.ok CycleOutcome.cancelled, next) = ending at hloaded
              cases waits_of_yields hloaded with
              | interrupted hwaiting =>
                  cases hend
                  exact .inr ⟨rfl, root, loading, waiting, rfl, hloading, hwaiting⟩
              | @rotated _ _ result _ hwaiting hrotates =>
                  cases result with
                  | error failure => cases hend
                  | ok root => cases hend

/-- A cancelled cycle that finds nothing has rotated before it came to wait; any other one has
written nothing. -/
theorem cancelled_cases (h : manager.cycle.Yields transcript (.ok .cancelled, next)) :
    ¬manager.FindsNothing transcript ∧
        (∀ exchange ∈ transcript, exchange.request.isWrite = false) ∨
      manager.FindsNothing transcript ∧ ∃ ca before rotation waiting,
        transcript = before ++ rotation ++ waiting ∧
        (∀ exchange ∈ before, exchange.request.isWrite = false) ∧
        manager.Rotates rotation (.ok ca, next) ∧
        ∀ exchange ∈ waiting, exchange.request.isWrite = false := by
  rcases cycle_yields_cancelled h with
    ⟨rfl, -⟩ | ⟨hpending, ca, loading, waiting, rfl, hloading, hwaiting⟩
  · refine .inl ⟨?_, by simp [ManagerRequest.isWrite]⟩
    rintro ⟨-, -, reads, rest, hsplit, -⟩
    cases hsplit
  have hquiet : ∀ exchange ∈ waiting, exchange.request.isWrite = false := fun exchange hmem =>
    ManagerRequest.isWrite_of_not_isCollaboration (hwaiting exchange hmem)
  have hwhole : ∀ {reads : ManagerTranscript},
      (∀ exchange ∈ reads, exchange.request.isWrite = false) →
        ∀ exchange ∈ (⟨.isCancelled, false⟩ :: reads : ManagerTranscript),
          exchange.request.isWrite = false := by
    intro reads hreads exchange hmem
    rcases List.mem_cons.mp hmem with rfl | hmem
    · rfl
    · exact hreads exchange hmem
  -- With an authority the load asks nothing; without one it reads, and rotates if it finds none.
  cases hempty : manager.ca with
  | some cached =>
      obtain ⟨rfl, -⟩ := (loads_of_yields hloading).eq_of_cached hempty
      refine .inl ⟨?_, hwhole hquiet⟩
      rintro ⟨hnone, -⟩
      rw [hempty] at hnone
      cases hnone
  | none =>
      rcases loadOrGenerate_yields_ok hempty hloading with
        hfound | ⟨reads, rotation, rfl, hreads, hrotates⟩
      · refine .inl ⟨fun hnothing => hnothing.not_found hfound, hwhole ?_⟩
        intro exchange hmem
        rcases List.mem_append.mp hmem with hmem | hmem
        · exact (loadExisting_yields hfound).1 exchange hmem
        · exact hquiet exchange hmem
      · refine .inr ⟨⟨hempty, hpending, reads, rotation ++ waiting, by simp, hreads⟩, ?_⟩
        exact ⟨ca, ⟨.isCancelled, false⟩ :: reads, rotation, waiting, rfl,
          hwhole (loadExisting_yields hreads).1, hrotates, hquiet⟩

theorem Rotates.exists_mint (h : manager.Rotates transcript (.ok ca, next))
    (hpending : manager.pending = none) (hleads : held.Leads transcript last) :
    ∃ generation : Generation, manager.MintedIn transcript generation ∧
      last = held.withGeneration manager.identity generation ∧
      next = { manager with ca := some generation.ca, pending := none } := by
  cases h with
  | @committed now supply generation hnext =>
      obtain rfl := eq_withGeneration_of_leads hnext hleads
      rcases nextGeneration_yields hnext with ⟨_, hsome, -⟩ | ⟨-, hmint⟩
      · rw [hpending] at hsome
        cases hsome
      · exact ⟨generation, ⟨now, supply, ⟨[⟨.now, now⟩], _, rfl⟩, hmint⟩, rfl, rfl⟩

/-- A cycle that is cancelled, at whatever moment, has written nothing unless it found nothing to
wait for. If it did, it has minted a generation and written all of it before it was cancelled, and
the authority of that generation is its own from then on. -/
theorem held_of_cancelled (hrun : manager.cycle.Yields transcript (.ok .cancelled, next))
    (hleads : held.Leads transcript last) :
    (¬manager.FindsNothing transcript →
      last = held ∧ ∀ exchange ∈ transcript, exchange.request.isWrite = false) ∧
    (manager.FindsNothing transcript →
      ∃ generation : Generation, manager.MintedIn transcript generation ∧
        last = held.withGeneration manager.identity generation ∧
        next = { manager with ca := some generation.ca, pending := none }) := by
  rcases cancelled_cases hrun with
    ⟨hother, hquiet⟩ | ⟨hnothing, ca, before, rotation, waiting, rfl, hbefore, hrotates, hwaiting⟩
  · exact ⟨fun _ => ⟨Collaborators.eq_of_leads hleads hquiet, hquiet⟩,
      fun hnothing => absurd hnothing hother⟩
  · refine ⟨fun hother => absurd hnothing hother, fun _ => ?_⟩
    obtain ⟨between, hrotated, hwaited⟩ := Collaborators.leads_append_iff.mp hleads
    obtain ⟨start, hread, hwritten⟩ := Collaborators.leads_append_iff.mp hrotated
    obtain rfl := Collaborators.eq_of_leads hread hbefore
    obtain rfl := Collaborators.eq_of_leads hwaited hwaiting
    obtain ⟨generation, hminted, hlast, hnext⟩ := hrotates.exists_mint hnothing.2.1 hwritten
    exact ⟨generation, hminted.append, hlast, hnext⟩

end RotationManager

namespace Sample

theorem exists_cancelledWait (manager : RotationManager) (ca : Certificate) :
    ∃ waiting, (manager.waitAndRotate ca).Yields waiting (.ok .cancelled, manager) ∧
      ∀ exchange ∈ waiting, exchange.request.isCollaboration = false := by
  let deadline := offsetInto ca.notBefore (validityWindow ca.notBefore ca.notAfter) .zero
  by_cases hearly : now < deadline
  · refine ⟨[⟨.jitter (validityWindow ca.notBefore ca.notAfter), .zero⟩, ⟨.now, now⟩,
      ⟨.sleep (deadline.since now), true⟩], .ask (.ask ?_),
      by simp [ManagerRequest.isCollaboration]⟩
    change Program.Yields (ite (now < deadline) _ _) _ _
    rw [if_pos hearly]
    exact .ask (.done _)
  · refine ⟨[⟨.jitter (validityWindow ca.notBefore ca.notAfter), .zero⟩, ⟨.now, now⟩,
      ⟨.isCancelled, true⟩], .ask (.ask ?_), by simp [ManagerRequest.isCollaboration]⟩
    change Program.Yields (ite (now < deadline) _ _) _ _
    rw [if_neg hearly]
    exact .ask (.done _)

theorem exists_cancelledCycle :
    ∃ generation transcript,
      restarted.cycle.Yields transcript
        (.ok .cancelled, { restarted with ca := some generation.ca, pending := none }) ∧
      Collaborators.Leads ⟨.empty, .empty⟩ transcript (rotated generation) ∧
      restarted.FindsNothing transcript := by
  obtain ⟨ca, leaf, hca, hleaf⟩ := exists_issue
  obtain ⟨generation, rfl, hmint⟩ :=
    Generation.exists_mint_of_issue signsSoundly_signingKey (by decide) hca hleaf
  obtain ⟨waiting, hwaits, hquiet⟩ := exists_cancelledWait
    { restarted with ca := some generation.ca, pending := none } generation.ca
  refine ⟨generation, ⟨.isCancelled, false⟩ :: (rotation generation ++ waiting), .ask ?_, ?_, ?_⟩
  · change (restarted.loadOrGenerate >>= _).Yields _ _
    exact Program.yields_bind_iff.mpr ⟨_, _, _, rfl, yields_rotation hmint, hwaits⟩
  · exact .cons trivial (Collaborators.leads_append_iff.mpr
      ⟨_, leads_rotation generation, Collaborators.leads_of_quiet hquiet⟩)
  · exact ⟨rfl, rfl, [⟨.get identity, .ok none⟩], _, rfl, .ask (.done _)⟩

end Sample

namespace RotationManager

theorem held_of_cancelled_sample :
    ∃ transcript next last,
      Sample.restarted.cycle.Yields transcript (.ok .cancelled, next) ∧
      Collaborators.Leads ⟨.empty, .empty⟩ transcript last ∧
      ∃ generation : Generation, Sample.restarted.MintedIn transcript generation ∧
        last = Collaborators.withGeneration ⟨.empty, .empty⟩ Sample.restarted.identity
          generation := by
  obtain ⟨generation, transcript, hrun, hleads, hnothing⟩ := Sample.exists_cancelledCycle
  obtain ⟨written, hminted, hlast, -⟩ := (held_of_cancelled hrun hleads).2 hnothing
  exact ⟨transcript, _, _, hrun, hleads, written, hminted, hlast⟩

/-- A cancelled cycle before which nothing was held, and after which something is. -/
theorem held_ne_of_cancelled :
    ∃ transcript next last,
      Sample.restarted.cycle.Yields transcript (.ok .cancelled, next) ∧
      Collaborators.Leads ⟨.empty, .empty⟩ transcript last ∧
      last.materials.get? Sample.restarted.identity ≠
        IdentityMap.empty.get? Sample.restarted.identity ∧
      last.bundles.get? Sample.restarted.identity ≠
        IdentityMap.empty.get? Sample.restarted.identity := by
  obtain ⟨generation, transcript, hrun, hleads, -⟩ := Sample.exists_cancelledCycle
  refine ⟨transcript, _, _, hrun, hleads, ?_, ?_⟩
  · exact ne_of_eq_of_ne (IdentityMap.get?_insert_self _ _ _) (Option.some_ne_none _)
  · exact ne_of_eq_of_ne (IdentityMap.get?_insert_self _ _ _) (Option.some_ne_none _)

end RotationManager

end CertRotation
