import CertRotation.Proofs.Rotation.Generation

namespace CertRotation.RotationManager

/-- What one rotation asks and how it ends: no generation can be made, the first or the second write
fails, or both succeed. -/
inductive Rotates (manager : RotationManager) :
    ManagerTranscript → Except Failure Certificate × RotationManager → Prop
  | unmade {now : Instant} {supply : ManagerTranscript} {failure : Failure}
      (hnext : (manager.nextGeneration now).run.Yields supply (.error failure)) :
      Rotates manager (⟨.now, now⟩ :: supply)
        (.error failure, { manager with pending := none })
  | unstored {now : Instant} {supply : ManagerTranscript} {failure : Failure}
      {generation : Generation}
      (hnext : (manager.nextGeneration now).run.Yields supply (.ok generation)) :
      Rotates manager
        (⟨.now, now⟩ :: supply ++ [⟨.put manager.identity generation.material, .error failure⟩])
        (.error failure, { manager with pending := some generation })
  | unpublished {now : Instant} {supply : ManagerTranscript} {failure : Failure}
      {generation : Generation}
      (hnext : (manager.nextGeneration now).run.Yields supply (.ok generation)) :
      Rotates manager
        (⟨.now, now⟩ :: supply ++ [⟨.put manager.identity generation.material, .ok ()⟩,
          ⟨.putBundle manager.identity generation.bundle, .error failure⟩])
        (.error failure, { manager with pending := some generation })
  | committed {now : Instant} {supply : ManagerTranscript} {generation : Generation}
      (hnext : (manager.nextGeneration now).run.Yields supply (.ok generation)) :
      Rotates manager
        (⟨.now, now⟩ :: supply ++ [⟨.put manager.identity generation.material, .ok ()⟩,
          ⟨.putBundle manager.identity generation.bundle, .ok ()⟩])
        (.ok generation.ca, { manager with ca := some generation.ca, pending := none })

/-- What one call for an authority asks and how it ends: there is one already, the collaborators
cannot be read, they hold one, or a new one is made. -/
inductive Loads (manager : RotationManager) :
    ManagerTranscript → Except Failure Certificate × RotationManager → Prop
  | cached {ca : Certificate} (hca : manager.ca = some ca) : Loads manager [] (.ok ca, manager)
  | unread {reads : ManagerTranscript} {failure : Failure} (hca : manager.ca = none)
      (hreads : ∀ exchange ∈ reads, exchange.request.isWrite = false) :
      Loads manager reads (.error failure, manager)
  | found {material : TlsMaterial} {bundle : Octets} {now : Instant} {leaf ca : Certificate}
      (hca : manager.ca = none) (hchain : material.verifyChain bundle now = .ok (leaf, ca)) :
      Loads manager
        [⟨.get manager.identity, .ok (some material)⟩,
          ⟨.getBundle manager.identity, .ok (some bundle)⟩, ⟨.now, now⟩]
        (.ok ca, { manager with ca := some ca })
  | made {reads rest : ManagerTranscript} {result : Except Failure Certificate × RotationManager}
      (hca : manager.ca = none)
      (hreads : ∀ exchange ∈ reads, exchange.request.isWrite = false)
      (hrotates : manager.Rotates rest result) :
      Loads manager (reads ++ rest) result

/-- What waiting for a deadline asks and how it ends: it is cancelled, or a rotation follows. -/
inductive Waits (manager : RotationManager) :
    ManagerTranscript → Except Failure CycleOutcome × RotationManager → Prop
  | interrupted {waiting : ManagerTranscript}
      (hwaiting : ∀ exchange ∈ waiting, exchange.request.isCollaboration = false) :
      Waits manager waiting (.ok .cancelled, manager)
  | rotated {waiting rest : ManagerTranscript} {result : Except Failure Certificate}
      {next : RotationManager}
      (hwaiting : ∀ exchange ∈ waiting, exchange.request.isCollaboration = false)
      (hrotates : manager.Rotates rest (result, next)) :
      Waits manager (waiting ++ rest) (result.map fun _ => .rotated, next)

/-- What one cycle asks and how it ends: it is cancelled at once, writes what is pending, cannot
load, or waits for the deadline of what it has loaded. -/
inductive Cycles (manager : RotationManager) :
    ManagerTranscript → Except Failure CycleOutcome × RotationManager → Prop
  | cancelled : Cycles manager [⟨.isCancelled, true⟩] (.ok .cancelled, manager)
  | retried {rest : ManagerTranscript} {result : Except Failure Certificate}
      {next : RotationManager} (hpending : manager.pending.isSome = true)
      (hrotates : manager.Rotates rest (result, next)) :
      Cycles manager (⟨.isCancelled, false⟩ :: rest) (result.map fun _ => .rotated, next)
  | unloaded {rest : ManagerTranscript} {failure : Failure} {next : RotationManager}
      (hpending : manager.pending = none) (hloads : manager.Loads rest (.error failure, next)) :
      Cycles manager (⟨.isCancelled, false⟩ :: rest) (.error failure, next)
  | waited {loading rest : ManagerTranscript} {ca : Certificate} {loaded : RotationManager}
      {result : Except Failure CycleOutcome × RotationManager}
      (hpending : manager.pending = none) (hloads : manager.Loads loading (.ok ca, loaded))
      (hwaits : loaded.Waits rest result) :
      Cycles manager (⟨.isCancelled, false⟩ :: (loading ++ rest)) result

variable {manager next : RotationManager} {transcript : ManagerTranscript}

theorem commit_yields {id : WebhookIdentity} {generation : Generation}
    {result : Except Failure Unit} (h : (commit id generation).run.Yields transcript result) :
    (∃ failure, result = .error failure ∧
      transcript = [⟨.put id generation.material, .error failure⟩]) ∨
    transcript = [⟨.put id generation.material, .ok ()⟩,
      ⟨.putBundle id generation.bundle, result⟩] := by
  rcases Program.yields_run_bind_iff.mp h with
    ⟨failure, rfl, hput⟩ | ⟨_, before, after, rfl, hput, h⟩
  · exact .inl ⟨failure, rfl, Program.yields_perform_iff.mp hput⟩
  · rw [Program.yields_perform_iff.mp hput, Program.yields_perform_iff.mp h]
    exact .inr rfl

theorem nextGeneration_yields {now : Instant} {result : Except Failure Generation}
    (h : (manager.nextGeneration now).run.Yields transcript result) :
    (∃ generation, manager.pending = some generation ∧ generation.ca.isValidAt now = true ∧
      transcript = [] ∧ result = .ok generation) ∨
    (∀ generation, manager.pending = some generation → generation.ca.isValidAt now = false) ∧
      (Generation.mint manager.identity manager.organization manager.certDuration
        now).run.Yields transcript result := by
  rw [nextGeneration] at h
  cases hpending : manager.pending with
  | none =>
      rw [hpending] at h
      exact .inr ⟨by simp, h⟩
  | some generation =>
      rw [hpending] at h
      cases hvalid : generation.ca.isValidAt now with
      | false =>
          rw [Option.filter_some_neg (by simp [hvalid])] at h
          exact .inr ⟨by simpa using hvalid, h⟩
      | true =>
          rw [Option.filter_some_pos (by simp [hvalid])] at h
          obtain ⟨rfl, rfl⟩ := Program.yields_pure_iff.mp h
          exact .inl ⟨generation, rfl, hvalid, rfl, rfl⟩

theorem supply_of_nextGeneration {now : Instant} {result : Except Failure Generation}
    (h : (manager.nextGeneration now).run.Yields transcript result) :
    ∀ exchange ∈ transcript, exchange.request.IsSupply := by
  rcases nextGeneration_yields h with ⟨_, -, -, rfl, -⟩ | ⟨-, hmint⟩
  · simp
  · exact (Generation.mint_onlyAsks _ _ _ _).mem hmint

theorem quiet_of_nextGeneration {now : Instant} {result : Except Failure Generation}
    (h : (manager.nextGeneration now).run.Yields transcript result) :
    ∀ exchange ∈ (⟨.now, now⟩ :: transcript : ManagerTranscript),
      exchange.request.isCollaboration = false := by
  intro exchange hmem
  rcases List.mem_cons.mp hmem with rfl | hmem
  · rfl
  · exact (supply_of_nextGeneration h exchange hmem).isCollaboration

theorem rotates_of_yields {result : Except Failure Certificate × RotationManager}
    (h : manager.rotate.Yields transcript result) : manager.Rotates transcript result := by
  obtain ⟨now, _, rfl, hmaking⟩ := Program.yields_perform_bind_iff.mp h
  obtain ⟨made, supply, _, rfl, hnext, hwriting⟩ := Program.yields_bind_iff.mp hmaking
  cases made with
  | error failure =>
      obtain ⟨rfl, rfl⟩ := Program.yields_pure_iff.mp hwriting
      rw [List.append_nil]
      exact .unmade hnext
  | ok generation =>
      obtain ⟨written, writes, _, rfl, hwrites, hend⟩ := Program.yields_bind_iff.mp hwriting
      cases written with
      | error failure =>
          obtain ⟨rfl, rfl⟩ := Program.yields_pure_iff.mp hend
          rw [List.append_nil]
          rcases commit_yields hwrites with ⟨_, heq, rfl⟩ | rfl
          · cases heq
            exact .unstored hnext
          · exact .unpublished hnext
      | ok _ =>
          obtain ⟨rfl, rfl⟩ := Program.yields_pure_iff.mp hend
          rw [List.append_nil]
          rcases commit_yields hwrites with ⟨_, heq, rfl⟩ | rfl
          · cases heq
          · exact .committed hnext

/-- Reading writes nothing, and what it finds holds together at the time that was read. -/
theorem loadExisting_yields {id : WebhookIdentity} {result : Except Failure (Option Certificate)}
    (h : (loadExisting id).run.Yields transcript result) :
    (∀ exchange ∈ transcript, exchange.request.isWrite = false) ∧
      ∀ ca, result = .ok (some ca) → ∃ material bundle now leaf,
        material.verifyChain bundle now = .ok (leaf, ca) ∧
        transcript = [⟨.get id, .ok (some material)⟩, ⟨.getBundle id, .ok (some bundle)⟩,
          ⟨.now, now⟩] := by
  rcases Program.yields_run_bind_iff.mp h with
    ⟨failure, rfl, hget⟩ | ⟨found, _, rest, rfl, hget, hrest⟩
  · obtain rfl := Program.yields_perform_iff.mp hget
    exact ⟨by simp [ManagerRequest.isWrite], by simp⟩
  obtain rfl := Program.yields_perform_iff.mp hget
  cases found with
  | none =>
      obtain ⟨rfl, rfl⟩ := Program.yields_pure_iff.mp hrest
      exact ⟨by simp [ManagerRequest.isWrite], by simp⟩
  | some material =>
      rcases Program.yields_run_bind_iff.mp hrest with
        ⟨failure, rfl, hbundle⟩ | ⟨found, _, rest, rfl, hbundle, hafter⟩
      · obtain rfl := Program.yields_perform_iff.mp hbundle
        exact ⟨by simp [ManagerRequest.isWrite], by simp⟩
      obtain rfl := Program.yields_perform_iff.mp hbundle
      cases found with
      | none =>
          obtain ⟨rfl, rfl⟩ := Program.yields_pure_iff.mp hafter
          exact ⟨by simp [ManagerRequest.isWrite], by simp⟩
      | some bundle =>
          obtain ⟨now, _, rfl, hend⟩ := Program.yields_run_lift_perform_bind_iff.mp hafter
          cases hchain : material.verifyChain bundle now with
          | error failure =>
              simp only [hchain] at hend
              obtain ⟨rfl, rfl⟩ := Program.yields_pure_iff.mp hend
              exact ⟨by simp [ManagerRequest.isWrite], by simp⟩
          | ok pair =>
              simp only [hchain] at hend
              obtain ⟨rfl, rfl⟩ := Program.yields_pure_iff.mp hend
              refine ⟨by simp [ManagerRequest.isWrite], ?_⟩
              rintro ca hca
              cases hca
              exact ⟨material, bundle, now, pair.1, hchain, rfl⟩

theorem loads_of_yields {result : Except Failure Certificate × RotationManager}
    (h : manager.loadOrGenerate.Yields transcript result) : manager.Loads transcript result := by
  rw [loadOrGenerate] at h
  cases hca : manager.ca with
  | some ca =>
      rw [hca] at h
      obtain ⟨rfl, rfl⟩ := Program.yields_pure_iff.mp h
      exact .cached hca
  | none =>
      rw [hca] at h
      obtain ⟨loaded, reads, rest, rfl, hreads, hrest⟩ := Program.yields_bind_iff.mp h
      obtain ⟨hquiet, hfound⟩ := loadExisting_yields hreads
      cases loaded with
      | error failure =>
          obtain ⟨rfl, rfl⟩ := Program.yields_pure_iff.mp hrest
          rw [List.append_nil]
          exact .unread hca hquiet
      | ok found =>
          cases found with
          | none => exact .made hca hquiet (rotates_of_yields hrest)
          | some ca =>
              obtain ⟨rfl, rfl⟩ := Program.yields_pure_iff.mp hrest
              obtain ⟨material, bundle, now, leaf, hchain, rfl⟩ := hfound ca rfl
              exact .found hca hchain

theorem rotated_yields {result : Except Failure CycleOutcome × RotationManager}
    (h : manager.rotated.Yields transcript result) :
    ∃ rotation next, manager.Rotates transcript (rotation, next) ∧
      result = (rotation.map fun _ => .rotated, next) := by
  obtain ⟨⟨rotation, next⟩, before, after, rfl, hrotation, hrest⟩ := Program.yields_bind_iff.mp h
  obtain ⟨rfl, rfl⟩ := Program.yields_pure_iff.mp hrest
  rw [List.append_nil]
  exact ⟨rotation, next, rotates_of_yields hrotation, rfl⟩

theorem Waits.cons {exchange : ManagerExchange}
    {result : Except Failure CycleOutcome × RotationManager}
    (hquiet : exchange.request.isCollaboration = false) (h : manager.Waits transcript result) :
    manager.Waits (exchange :: transcript) result := by
  have hcons : ∀ {waiting : ManagerTranscript},
      (∀ exchange ∈ waiting, exchange.request.isCollaboration = false) →
        ∀ exchange' ∈ exchange :: waiting, exchange'.request.isCollaboration = false := by
    intro waiting hwaiting exchange' hmem
    rcases List.mem_cons.mp hmem with rfl | hmem
    · exact hquiet
    · exact hwaiting exchange' hmem
  cases h with
  | interrupted hwaiting => exact .interrupted (hcons hwaiting)
  | rotated hwaiting hrotates => exact .rotated (hcons hwaiting) hrotates

theorem waits_of_yields {ca : Certificate}
    {result : Except Failure CycleOutcome × RotationManager}
    (h : (manager.waitAndRotate ca).Yields transcript result) :
    manager.Waits transcript result := by
  have hcheck : ∀ {rest : ManagerTranscript},
      Program.Yields (do
        if ← ManagerRequest.ask .isCancelled then return (.ok .cancelled, manager)
        manager.rotated) rest result → manager.Waits rest result := by
    intro rest hrest
    obtain ⟨cancelled, _, rfl, hchecked⟩ := Program.yields_perform_bind_iff.mp hrest
    apply Waits.cons rfl
    cases cancelled with
    | true =>
        obtain ⟨rfl, rfl⟩ := Program.yields_pure_iff.mp hchecked
        exact .interrupted (by simp)
    | false =>
        obtain ⟨rotation, next, hrotates, rfl⟩ := rotated_yields hchecked
        exact @Waits.rotated _ [] _ _ _ (by simp) hrotates
  obtain ⟨deadline, _, _, rfl, hdeadline, hreading⟩ := Program.yields_bind_iff.mp h
  obtain ⟨offset, _, rfl, hoffset⟩ := Program.yields_perform_bind_iff.mp hdeadline
  obtain ⟨rfl, -⟩ := Program.yields_pure_iff.mp hoffset
  obtain ⟨now, _, rfl, hwaiting⟩ := Program.yields_perform_bind_iff.mp hreading
  refine Waits.cons rfl (Waits.cons rfl ?_)
  split at hwaiting
  · obtain ⟨cut, _, rfl, hslept⟩ := Program.yields_perform_bind_iff.mp hwaiting
    apply Waits.cons rfl
    cases cut with
    | true =>
        obtain ⟨rfl, rfl⟩ := Program.yields_pure_iff.mp hslept
        exact .interrupted (by simp)
    | false => exact hcheck hslept
  · exact hcheck hwaiting

theorem cycles_of_yields {result : Except Failure CycleOutcome × RotationManager}
    (h : manager.cycle.Yields transcript result) : manager.Cycles transcript result := by
  obtain ⟨cancelled, _, rfl, hrest⟩ := Program.yields_perform_bind_iff.mp h
  cases cancelled with
  | true =>
      obtain ⟨rfl, rfl⟩ := Program.yields_pure_iff.mp hrest
      exact .cancelled
  | false =>
      cases hpending : manager.pending with
      | some generation =>
          simp only [hpending] at hrest
          obtain ⟨rotation, next, hrotates, rfl⟩ := rotated_yields hrest
          exact .retried (by rw [hpending]; rfl) hrotates
      | none =>
          simp only [hpending] at hrest
          obtain ⟨⟨loaded, next⟩, loading, _, rfl, hloading, hloaded⟩ :=
            Program.yields_bind_iff.mp hrest
          have hloads := loads_of_yields hloading
          cases loaded with
          | error failure =>
              obtain ⟨rfl, rfl⟩ := Program.yields_pure_iff.mp hloaded
              rw [List.append_nil]
              exact .unloaded hpending hloads
          | ok ca => exact .waited hpending hloads (waits_of_yields hloaded)

end CertRotation.RotationManager
