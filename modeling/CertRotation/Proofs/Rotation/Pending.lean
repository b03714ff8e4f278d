import CertRotation.Proofs.Rotation.Calls

namespace CertRotation

/-- A finished cycle: its exchanges and its result. -/
abbrev CycleCall := ManagerTranscript × Except Failure CycleOutcome

namespace RotationManager

/-- A rotation got hold of a generation and failed to write it. -/
def FailsToWrite (manager : RotationManager) (generation : Generation)
    (failed : RotationManager) : Prop :=
  ∃ now supply writes failure,
    (manager.nextGeneration now).run.Yields supply (.ok generation) ∧
    manager.rotate.Yields (⟨.now, now⟩ :: (supply ++ writes)) (.error failure, failed)

/-- Cycles that follow one another. -/
inductive RunsCycles : RotationManager → List CycleCall → RotationManager → Prop
  | nil (manager : RotationManager) : RunsCycles manager [] manager
  | cons {manager next last : RotationManager} {transcript : ManagerTranscript}
      {result : Except Failure CycleOutcome} {calls : List CycleCall}
      (hrun : manager.cycle.Yields transcript (result, next))
      (hrest : RunsCycles next calls last) :
      RunsCycles manager ((transcript, result) :: calls) last

/-- A generation was minted for a manager's webhook from answers in a transcript. -/
def MintedIn (manager : RotationManager) (transcript : ManagerTranscript)
    (generation : Generation) : Prop :=
  ∃ now supply, supply <:+: transcript ∧
    (Generation.mint manager.identity manager.organization manager.certDuration now).run.Yields
      supply (.ok generation)

/-- Everything that a transcript tries to write belongs to generations minted in it. -/
def WritesMinted (manager : RotationManager) (transcript : ManagerTranscript) : Prop :=
  ∀ exchange ∈ transcript, exchange.request.isWrite = true →
    ∃ generation, manager.MintedIn transcript generation ∧
      (exchange.request = .put manager.identity generation.material ∨
        exchange.request = .putBundle manager.identity generation.bundle)

/-- What cycles do for a manager with a pending generation. As long as the generation is valid when
the clock is read, a cycle that is not cancelled asks for nothing but the writes of the generation.
A cycle that finds it outside its validity goes on as if it had never been pending, and from then on
everything that is written was minted since. -/
inductive Retries (manager : RotationManager) (generation : Generation) :
    List CycleCall → RotationManager → Prop
  | pending : Retries manager generation [] manager
  | cancelled {calls : List CycleCall} {last : RotationManager}
      (hrest : Retries manager generation calls last) :
      Retries manager generation (([⟨.isCancelled, true⟩], .ok .cancelled) :: calls) last
  | unstored {now : Instant} {failure : Failure} {calls : List CycleCall} {last : RotationManager}
      (hvalid : generation.ca.isValidAt now = true)
      (hrest : Retries manager generation calls last) :
      Retries manager generation
        (([⟨.isCancelled, false⟩, ⟨.now, now⟩,
          ⟨.put manager.identity generation.material, .error failure⟩], .error failure) :: calls)
        last
  | unpublished {now : Instant} {failure : Failure} {calls : List CycleCall}
      {last : RotationManager} (hvalid : generation.ca.isValidAt now = true)
      (hrest : Retries manager generation calls last) :
      Retries manager generation
        (([⟨.isCancelled, false⟩, ⟨.now, now⟩,
          ⟨.put manager.identity generation.material, .ok ()⟩,
          ⟨.putBundle manager.identity generation.bundle, .error failure⟩], .error failure) ::
            calls)
        last
  | committed {now : Instant} {calls : List CycleCall} {last : RotationManager}
      (hvalid : generation.ca.isValidAt now = true)
      (hrest : RunsCycles { manager with ca := some generation.ca, pending := none } calls last) :
      Retries manager generation
        (([⟨.isCancelled, false⟩, ⟨.now, now⟩,
          ⟨.put manager.identity generation.material, .ok ()⟩,
          ⟨.putBundle manager.identity generation.bundle, .ok ()⟩], .ok .rotated) :: calls)
        last
  | dropped {now : Instant} {rest : ManagerTranscript} {result : Except Failure CycleOutcome}
      {next : RotationManager} {calls : List CycleCall} {last : RotationManager}
      (hinvalid : generation.ca.isValidAt now = false)
      (hforgotten : ({ manager with pending := none } : RotationManager).rotated.Yields
        (⟨.now, now⟩ :: rest) (result, next))
      (hrest : RunsCycles next calls last)
      (hwrites : manager.WritesMinted (⟨.now, now⟩ :: rest ++ calls.flatMap (·.1))) :
      Retries manager generation ((⟨.isCancelled, false⟩ :: ⟨.now, now⟩ :: rest, result) :: calls)
        last

variable {manager next failed last : RotationManager} {generation : Generation}
  {transcript : ManagerTranscript} {calls : List CycleCall}

theorem MintedIn.append {before rest : ManagerTranscript}
    (h : manager.MintedIn transcript generation) :
    manager.MintedIn (before ++ transcript ++ rest) generation := by
  obtain ⟨now, supply, hinfix, hmint⟩ := h
  exact ⟨now, supply, hinfix.trans (List.infix_append before transcript rest), hmint⟩

theorem FailsToWrite.pending_eq (h : manager.FailsToWrite generation failed) :
    failed.pending = some generation := by
  obtain ⟨now, supply, writes, failure, hnext, hrun⟩ := h
  have hrotates := rotates_of_yields hrun
  generalize hwhole : (⟨.now, now⟩ :: (supply ++ writes) : ManagerTranscript) = whole at hrotates
  cases hrotates with
  | @unmade now' supply' _ hnext' =>
      obtain ⟨hnow, hrest⟩ := List.cons.inj hwhole
      cases hnow
      rw [← List.append_nil supply'] at hrest
      obtain ⟨-, heq, -⟩ := hnext.unique hnext' hrest
      cases heq
  | @unstored now' supply' _ generation' hnext' =>
      obtain ⟨hnow, hrest⟩ := List.cons.inj hwhole
      cases hnow
      obtain ⟨-, heq, -⟩ := hnext.unique hnext' hrest
      cases heq
      rfl
  | @unpublished now' supply' _ generation' hnext' =>
      obtain ⟨hnow, hrest⟩ := List.cons.inj hwhole
      cases hnow
      obtain ⟨-, heq, -⟩ := hnext.unique hnext' hrest
      cases heq
      rfl

theorem nextGeneration_of_invalid {now : Instant} (hpending : manager.pending = some generation)
    (hinvalid : generation.ca.isValidAt now = false) :
    manager.nextGeneration now =
      ({ manager with pending := none } : RotationManager).nextGeneration now := by
  rw [nextGeneration, nextGeneration, hpending, Option.filter_some_neg (by simp [hinvalid])]
  rfl

theorem rotated_of_invalid {now : Instant} {rest : ManagerTranscript}
    {result : Except Failure CycleOutcome × RotationManager}
    (hpending : manager.pending = some generation) (hinvalid : generation.ca.isValidAt now = false)
    (h : manager.rotated.Yields (⟨.now, now⟩ :: rest) result) :
    ({ manager with pending := none } : RotationManager).rotated.Yields (⟨.now, now⟩ :: rest)
      result := by
  obtain ⟨pair, before, after, hsplit, hrotation, hend⟩ := Program.yields_bind_iff.mp h
  obtain ⟨read, making, rfl, hmaking⟩ := Program.yields_perform_bind_iff.mp hrotation
  obtain ⟨hnow, hrest⟩ := List.cons.inj hsplit
  cases hnow
  rw [nextGeneration_of_invalid hpending hinvalid] at hmaking
  rw [hsplit]
  exact Program.yields_bind_iff.mpr ⟨pair, _, after, rfl,
    Program.yields_perform_bind_iff.mpr ⟨now, making, rfl, hmaking⟩, hend⟩

theorem exists_now_of_rotated {result : Except Failure CycleOutcome × RotationManager}
    (h : manager.rotated.Yields transcript result) :
    ∃ now rest, transcript = ⟨.now, now⟩ :: rest := by
  obtain ⟨_, before, after, rfl, hrotation, -⟩ := Program.yields_bind_iff.mp h
  obtain ⟨now, rest, rfl, -⟩ := Program.yields_perform_bind_iff.mp hrotation
  exact ⟨now, rest ++ after, rfl⟩

theorem cycle_yields_of_pending {result : Except Failure CycleOutcome}
    (hpending : manager.pending = some generation)
    (h : manager.cycle.Yields transcript (result, next)) :
    transcript = [⟨.isCancelled, true⟩] ∧ result = .ok .cancelled ∧ next = manager ∨
      ∃ rest, transcript = ⟨.isCancelled, false⟩ :: rest ∧
        manager.rotated.Yields rest (result, next) := by
  obtain ⟨cancelled, rest, rfl, hrest⟩ := Program.yields_perform_bind_iff.mp h
  cases cancelled with
  | true =>
      obtain ⟨rfl, heq⟩ := Program.yields_pure_iff.mp hrest
      cases heq
      exact .inl ⟨rfl, rfl, rfl⟩
  | false =>
      simp only [hpending] at hrest
      exact .inr ⟨rest, rfl, hrest⟩

theorem request_of_mem_writes {id : WebhookIdentity} {stored published : Except Failure Unit}
    {exchange : ManagerExchange}
    (h : exchange ∈ ([⟨.put id generation.material, stored⟩,
      ⟨.putBundle id generation.bundle, published⟩] : ManagerTranscript)) :
    exchange.request = .put id generation.material ∨
      exchange.request = .putBundle id generation.bundle := by
  rcases List.mem_cons.mp h with rfl | h
  · exact .inl rfl
  · rw [List.mem_singleton.mp h]
    exact .inr rfl

/-- A manager whose pending generation was minted in a transcript, and with it all that was tried to
write in it. The transcript begins where another manager for the same task had nothing pending. -/
structure MintsAll (origin manager : RotationManager) (past : ManagerTranscript) : Prop where
  identity : manager.identity = origin.identity
  organization : manager.organization = origin.organization
  certDuration : manager.certDuration = origin.certDuration
  pending (generation : Generation) :
    manager.pending = some generation → origin.MintedIn past generation
  writes : origin.WritesMinted past

namespace MintsAll

variable {origin : RotationManager} {past : ManagerTranscript}

theorem start (origin : RotationManager) :
    MintsAll origin { origin with pending := none } [] := by
  refine ⟨rfl, rfl, rfl, ?_, ?_⟩
  · intro generation hpending
    cases hpending
  · intro exchange hmem
    cases hmem

theorem extend (h : MintsAll origin manager past)
    (hidentity : next.identity = manager.identity)
    (horganization : next.organization = manager.organization)
    (hduration : next.certDuration = manager.certDuration)
    (hpending : ∀ generation, next.pending = some generation →
      origin.MintedIn (past ++ transcript) generation)
    (hwrites : ∀ exchange ∈ transcript, exchange.request.isWrite = true →
      ∃ generation, origin.MintedIn (past ++ transcript) generation ∧
        (exchange.request = .put origin.identity generation.material ∨
          exchange.request = .putBundle origin.identity generation.bundle)) :
    MintsAll origin next (past ++ transcript) := by
  refine ⟨hidentity.trans h.identity, horganization.trans h.organization,
    hduration.trans h.certDuration, hpending, ?_⟩
  intro exchange hmem hwrite
  rcases List.mem_append.mp hmem with hmem | hmem
  · obtain ⟨generation, hminted, hrequest⟩ := h.writes exchange hmem hwrite
    exact ⟨generation, @MintedIn.append _ _ _ [] transcript hminted, hrequest⟩
  · exact hwrites exchange hmem hwrite

theorem append (h : MintsAll origin manager past)
    (hquiet : ∀ exchange ∈ transcript, exchange.request.isWrite = false)
    (hpending : next.pending = manager.pending ∨ next.pending = none)
    (hidentity : next.identity = manager.identity)
    (horganization : next.organization = manager.organization)
    (hduration : next.certDuration = manager.certDuration) :
    MintsAll origin next (past ++ transcript) := by
  apply h.extend hidentity horganization hduration
  · intro generation hsome
    rcases hpending with hsame | hnone
    · exact @MintedIn.append _ _ _ [] transcript (h.pending generation (hsame.symm.trans hsome))
    · rw [hnone] at hsome
      cases hsome
  · intro exchange hmem hwrite
    rw [hquiet exchange hmem] at hwrite
    cases hwrite

theorem mintedIn_of_nextGeneration {now : Instant} {supply rest : ManagerTranscript}
    (h : MintsAll origin manager past)
    (hnext : (manager.nextGeneration now).run.Yields supply (.ok generation)) :
    origin.MintedIn (past ++ (⟨.now, now⟩ :: supply ++ rest)) generation := by
  rcases nextGeneration_yields hnext with ⟨_, hpending, -, -, heq⟩ | ⟨-, hmint⟩
  · cases heq
    exact @MintedIn.append _ _ _ [] _ (h.pending generation hpending)
  · rw [h.identity, h.organization, h.certDuration] at hmint
    refine ⟨now, supply, ?_, hmint⟩
    exact ⟨past ++ [⟨.now, now⟩], rest, by simp⟩

theorem written {now : Instant} {supply writes : ManagerTranscript}
    (h : MintsAll origin manager past)
    (hnext : (manager.nextGeneration now).run.Yields supply (.ok generation))
    (hwrites : ∀ exchange ∈ writes, exchange.request = .put manager.identity generation.material ∨
      exchange.request = .putBundle manager.identity generation.bundle)
    (hpending : ∀ kept, next.pending = some kept → kept = generation)
    (hidentity : next.identity = manager.identity)
    (horganization : next.organization = manager.organization)
    (hduration : next.certDuration = manager.certDuration) :
    MintsAll origin next (past ++ (⟨.now, now⟩ :: supply ++ writes)) := by
  have hminted := @mintedIn_of_nextGeneration _ _ _ _ _ _ writes h hnext
  apply h.extend hidentity horganization hduration
  · intro kept hkept
    rw [hpending kept hkept]
    exact hminted
  · intro exchange hmem hwrite
    rcases List.mem_append.mp hmem with hmem | hmem
    · rw [ManagerRequest.isWrite_of_not_isCollaboration
        (quiet_of_nextGeneration hnext exchange hmem)] at hwrite
      cases hwrite
    · rw [← h.identity]
      exact ⟨generation, hminted, hwrites exchange hmem⟩

theorem rotates {result : Except Failure Certificate} (h : MintsAll origin manager past)
    (hrotates : manager.Rotates transcript (result, next)) :
    MintsAll origin next (past ++ transcript) := by
  cases hrotates with
  | @unmade now supply failure hnext =>
      refine h.append ?_ (.inr rfl) rfl rfl rfl
      intro exchange hmem
      exact ManagerRequest.isWrite_of_not_isCollaboration
        (quiet_of_nextGeneration hnext exchange hmem)
  | unstored hnext =>
      exact h.written hnext (fun _ hmem => .inl (by rw [List.mem_singleton.mp hmem]))
        (fun _ hkept => (Option.some.inj hkept).symm) rfl rfl rfl
  | unpublished hnext =>
      exact h.written hnext (fun _ => request_of_mem_writes)
        (fun _ hkept => (Option.some.inj hkept).symm) rfl rfl rfl
  | committed hnext =>
      exact h.written hnext (fun _ => request_of_mem_writes) (fun _ hkept => by cases hkept)
        rfl rfl rfl

theorem loads {result : Except Failure Certificate} (h : MintsAll origin manager past)
    (hloads : manager.Loads transcript (result, next)) :
    MintsAll origin next (past ++ transcript) := by
  cases hloads with
  | cached hca => simpa using h
  | unread hca hreads => exact h.append hreads (.inl rfl) rfl rfl rfl
  | found hca hchain =>
      exact h.append (by simp [ManagerRequest.isWrite]) (.inl rfl) rfl rfl rfl
  | made hca hreads hrotates =>
      rw [← List.append_assoc]
      exact (h.append hreads (.inl rfl) rfl rfl rfl).rotates hrotates

theorem waits {result : Except Failure CycleOutcome} (h : MintsAll origin manager past)
    (hwaits : manager.Waits transcript (result, next)) :
    MintsAll origin next (past ++ transcript) := by
  have hquiet : ∀ {waiting : ManagerTranscript},
      (∀ exchange ∈ waiting, exchange.request.isCollaboration = false) →
        ∀ exchange ∈ waiting, exchange.request.isWrite = false :=
    fun hwaiting exchange hmem =>
      ManagerRequest.isWrite_of_not_isCollaboration (hwaiting exchange hmem)
  cases hwaits with
  | interrupted hwaiting => exact h.append (hquiet hwaiting) (.inl rfl) rfl rfl rfl
  | rotated hwaiting hrotates =>
      rw [← List.append_assoc]
      exact (h.append (hquiet hwaiting) (.inl rfl) rfl rfl rfl).rotates hrotates

theorem cycles {result : Except Failure CycleOutcome} (h : MintsAll origin manager past)
    (hcycles : manager.Cycles transcript (result, next)) :
    MintsAll origin next (past ++ transcript) := by
  have hasked : ∀ {cancelled : Bool},
      MintsAll origin manager (past ++ [⟨.isCancelled, cancelled⟩]) :=
    h.append (by simp [ManagerRequest.isWrite]) (.inl rfl) rfl rfl rfl
  cases hcycles with
  | cancelled => exact hasked
  | retried hpending hrotates =>
      rw [List.append_cons]
      exact hasked.rotates hrotates
  | unloaded hpending hloads =>
      rw [List.append_cons]
      exact hasked.loads hloads
  | waited hpending hloads hwaits =>
      rw [List.append_cons, ← List.append_assoc]
      exact (hasked.loads hloads).waits hwaits

theorem runsCycles (h : MintsAll origin manager past) (hruns : RunsCycles manager calls last) :
    MintsAll origin last (past ++ calls.flatMap (·.1)) := by
  induction hruns generalizing past with
  | nil manager => simpa using h
  | @cons manager next last transcript result calls hrun hrest ih =>
      rw [List.flatMap_cons, ← List.append_assoc]
      exact ih (h.cycles (cycles_of_yields hrun))

end MintsAll

theorem writesMinted_of_forgotten {rest : ManagerTranscript} {result : Except Failure CycleOutcome}
    (h : ({ manager with pending := none } : RotationManager).rotated.Yields rest (result, next))
    (hruns : RunsCycles next calls last) :
    manager.WritesMinted (rest ++ calls.flatMap (·.1)) := by
  obtain ⟨rotation, after, hrotates, heq⟩ := rotated_yields h
  cases heq
  exact ((MintsAll.start manager).rotates hrotates).runsCycles hruns |>.writes

/-- A rotation that finds the pending generation valid asks for the writes of the generation
alone. -/
theorem rotates_of_valid {now : Instant} {result : Except Failure Certificate}
    (hpending : manager.pending = some generation) (hvalid : generation.ca.isValidAt now = true)
    (h : manager.Rotates (⟨.now, now⟩ :: transcript) (result, next)) :
    (∃ failure, result = .error failure ∧ next = manager ∧
      (transcript = [⟨.put manager.identity generation.material, .error failure⟩] ∨
        transcript = [⟨.put manager.identity generation.material, .ok ()⟩,
          ⟨.putBundle manager.identity generation.bundle, .error failure⟩])) ∨
    result = .ok generation.ca ∧
      next = { manager with ca := some generation.ca, pending := none } ∧
      transcript = [⟨.put manager.identity generation.material, .ok ()⟩,
        ⟨.putBundle manager.identity generation.bundle, .ok ()⟩] := by
  have hnext : ∀ {supply : ManagerTranscript} {made : Except Failure Generation},
      (manager.nextGeneration now).run.Yields supply made →
        supply = [] ∧ made = .ok generation := by
    intro supply made hmade
    rcases nextGeneration_yields hmade with ⟨found, hfound, -, rfl, rfl⟩ | ⟨hnone, -⟩
    · obtain rfl := Option.some.inj (hfound.symm.trans hpending)
      exact ⟨rfl, rfl⟩
    · rw [hnone generation hpending] at hvalid
      cases hvalid
  have hsame : { manager with pending := some generation } = manager := by
    rw [← hpending]
  generalize hwhole : (⟨.now, now⟩ :: transcript : ManagerTranscript) = whole at h
  cases h with
  | unmade hmade =>
      cases hwhole
      obtain ⟨-, heq⟩ := hnext hmade
      cases heq
  | @unstored _ _ failure _ hmade =>
      cases hwhole
      obtain ⟨rfl, heq⟩ := hnext hmade
      cases heq
      exact .inl ⟨failure, rfl, hsame, .inl rfl⟩
  | @unpublished _ _ failure _ hmade =>
      cases hwhole
      obtain ⟨rfl, heq⟩ := hnext hmade
      cases heq
      exact .inl ⟨failure, rfl, hsame, .inr rfl⟩
  | committed hmade =>
      cases hwhole
      obtain ⟨rfl, heq⟩ := hnext hmade
      cases heq
      exact .inr ⟨rfl, rfl, rfl⟩

theorem retries_of_runsCycles (hpending : manager.pending = some generation)
    (hruns : RunsCycles manager calls last) : manager.Retries generation calls last := by
  induction hruns with
  | nil manager => exact .pending
  | @cons manager next last transcript result calls hrun hrest ih =>
      rcases cycle_yields_of_pending hpending hrun with ⟨rfl, rfl, rfl⟩ | ⟨rest, rfl, hrotated⟩
      · exact .cancelled (ih hpending)
      · obtain ⟨now, asked, rfl⟩ := exists_now_of_rotated hrotated
        cases hvalid : generation.ca.isValidAt now with
        | false =>
            have hforgotten := rotated_of_invalid hpending hvalid hrotated
            exact .dropped hvalid hforgotten hrest (writesMinted_of_forgotten hforgotten hrest)
        | true =>
            obtain ⟨rotation, after, hrotates, heq⟩ := rotated_yields hrotated
            rcases rotates_of_valid hpending hvalid hrotates with
              ⟨failure, rfl, rfl, rfl | rfl⟩ | ⟨rfl, rfl, rfl⟩
            · cases heq
              exact .unstored hvalid (ih hpending)
            · cases heq
              exact .unpublished hvalid (ih hpending)
            · cases heq
              exact .committed hvalid hrest

/-- A generation that a rotation failed to write is pending, and whatever cycles come after, it is
written again, unchanged and at once, until it is committed or found outside its validity. -/
theorem retries_of_failsToWrite (hfailed : manager.FailsToWrite generation failed)
    (hruns : RunsCycles failed calls last) :
    failed.pending = some generation ∧ failed.Retries generation calls last :=
  ⟨hfailed.pending_eq, retries_of_runsCycles hfailed.pending_eq hruns⟩

/-- A generation whose authority is valid for the first ten seconds. -/
def sampleGeneration : Generation where
  material := ⟨[1], [2]⟩
  bundle := [3]
  ca := .ofWindow [] ⟨0, 0⟩ ⟨10, 0⟩ ⟨"ca", []⟩ ⟨"ca", []⟩

/-- A manager that has not written it yet. -/
def sampleStuck : RotationManager :=
  { new ⟨"hook", "ops", .validating⟩ (.ofSeconds 10) with pending := some sampleGeneration }

/-- A cycle that cannot publish, and one that comes too late and gets no key for another. -/
def sampleCalls : List CycleCall :=
  [([⟨.isCancelled, false⟩, ⟨.now, ⟨6, 0⟩⟩,
      ⟨.put sampleStuck.identity sampleGeneration.material, .ok ()⟩,
      ⟨.putBundle sampleStuck.identity sampleGeneration.bundle, .error .keyGeneration⟩],
      .error .keyGeneration),
    ([⟨.isCancelled, false⟩, ⟨.now, ⟨11, 0⟩⟩, ⟨.newKey, .error .keyGeneration⟩],
      .error .keyGeneration)]

theorem retries_of_failsToWrite_sample :
    sampleStuck.FailsToWrite sampleGeneration sampleStuck ∧
      RunsCycles sampleStuck sampleCalls { sampleStuck with pending := none } ∧
      sampleStuck.pending = some sampleGeneration ∧
      sampleStuck.Retries sampleGeneration sampleCalls { sampleStuck with pending := none } := by
  have hfailed : sampleStuck.FailsToWrite sampleGeneration sampleStuck :=
    ⟨⟨5, 0⟩, [], [⟨.put sampleStuck.identity sampleGeneration.material, .error .keyGeneration⟩],
      .keyGeneration, .done _, .ask (.ask (.done _))⟩
  have hruns : RunsCycles sampleStuck sampleCalls { sampleStuck with pending := none } :=
    .cons (.ask (.ask (.ask (.ask (.done _))))) (.cons (.ask (.ask (.ask (.done _)))) (.nil _))
  obtain ⟨hpending, hretries⟩ := retries_of_failsToWrite hfailed hruns
  exact ⟨hfailed, hruns, hpending, hretries⟩

end RotationManager

end CertRotation
