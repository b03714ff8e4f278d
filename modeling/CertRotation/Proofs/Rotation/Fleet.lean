import CertRotation.Proofs.Rotation.Generation
import CertRotation.Rotation.Manager
import Mathlib.Logic.Function.Basic
import Mathlib.Logic.Function.Iterate

namespace CertRotation

namespace ManagerRequest

/-- The identity that a request to the store or to the publisher is about. -/
def identity? : ManagerRequest → Option WebhookIdentity
  | get id | put id _ | getBundle id | putBundle id _ => some id
  | _ => none

/-- A request that is about one identity, if it goes to the store or to the publisher. -/
def IsAbout (id : WebhookIdentity) (request : ManagerRequest) : Prop :=
  ∀ other ∈ request.identity?, other = id

theorem isAbout_of_not_isCollaboration {request : ManagerRequest}
    (h : request.isCollaboration = false) (id : WebhookIdentity) : request.IsAbout id := by
  have hnone : request.identity? = none := by
    cases request <;> first | rfl | cases h
  rintro other hmem
  rw [hnone] at hmem
  cases hmem

theorem isAbout_self {request : ManagerRequest} {id : WebhookIdentity}
    (h : request.identity? = some id) : request.IsAbout id := by
  intro other hmem
  rw [h] at hmem
  exact (Option.some_inj.mp hmem).symm

end ManagerRequest

namespace RotationManager

open ManagerRequest (IsAbout isAbout_self isAbout_of_not_isCollaboration)
open Program (onlyAsks_perform_iff onlyAsks_pure)

theorem nextGeneration_onlyAsks (manager : RotationManager) (now : Instant)
    (id : WebhookIdentity) : (manager.nextGeneration now).run.OnlyAsks (IsAbout id) := by
  rw [nextGeneration]
  split
  · exact onlyAsks_pure _
  · apply (Generation.mint_onlyAsks _ _ _ _).mono
    intro request hsupply
    exact isAbout_of_not_isCollaboration hsupply.isCollaboration id

theorem commit_onlyAsks (id : WebhookIdentity) (generation : Generation) :
    (commit id generation).run.OnlyAsks (IsAbout id) :=
  .run_bind (onlyAsks_perform_iff.mpr (isAbout_self rfl)) fun _ =>
    onlyAsks_perform_iff.mpr (isAbout_self rfl)

theorem loadExisting_onlyAsks (id : WebhookIdentity) :
    (loadExisting id).run.OnlyAsks (IsAbout id) := by
  refine .run_bind (onlyAsks_perform_iff.mpr (isAbout_self rfl)) fun material => ?_
  cases material with
  | none => exact onlyAsks_pure _
  | some material =>
      refine .run_bind (onlyAsks_perform_iff.mpr (isAbout_self rfl)) fun bundle => ?_
      cases bundle with
      | none => exact onlyAsks_pure _
      | some bundle =>
          have hnow : (ExceptT.lift (ManagerRequest.ask .now) :
              ExceptT Failure Work Instant).run.OnlyAsks (IsAbout id) :=
            ⟨isAbout_of_not_isCollaboration rfl id, fun _ => trivial⟩
          refine .run_bind hnow fun now => ?_
          split
          · exact onlyAsks_pure _
          · exact onlyAsks_pure _

/-- Work of a manager for an identity: it asks about that identity alone and ends with a manager for
it. -/
def IsWorkFor (id : WebhookIdentity) {α : Type} (work : Work (α × RotationManager)) : Prop :=
  work.Ensures (IsAbout id) fun result => result.2.identity = id

theorem rotate_isWorkFor (manager : RotationManager) :
    IsWorkFor manager.identity manager.rotate := by
  refine ⟨isAbout_of_not_isCollaboration rfl _, fun now => ?_⟩
  apply (manager.nextGeneration_onlyAsks now _).ensures.bind
  rintro (failure | generation) -
  · exact rfl
  · apply (commit_onlyAsks manager.identity generation).ensures.bind
    rintro (failure | _) -
    · exact rfl
    · exact rfl

theorem rotated_isWorkFor (manager : RotationManager) :
    IsWorkFor manager.identity manager.rotated := by
  apply manager.rotate_isWorkFor.bind
  rintro ⟨result, next⟩ hidentity
  exact hidentity

theorem loadOrGenerate_isWorkFor (manager : RotationManager) :
    IsWorkFor manager.identity manager.loadOrGenerate := by
  rw [loadOrGenerate]
  split
  · exact rfl
  · apply (loadExisting_onlyAsks manager.identity).ensures.bind
    rintro (failure | _ | ca) -
    · exact rfl
    · exact manager.rotate_isWorkFor
    · exact rfl

theorem waitAndRotate_isWorkFor (manager : RotationManager) (ca : Certificate) :
    IsWorkFor manager.identity (manager.waitAndRotate ca) := by
  have hcheck : IsWorkFor manager.identity (do
      if ← ManagerRequest.ask .isCancelled then return (.ok .cancelled, manager)
      manager.rotated) := by
    refine ⟨isAbout_of_not_isCollaboration rfl _, ?_⟩
    rintro (_ | _)
    · exact manager.rotated_isWorkFor
    · exact rfl
  refine ⟨isAbout_of_not_isCollaboration rfl _, fun (offset : Duration) => ?_⟩
  refine ⟨isAbout_of_not_isCollaboration rfl _, fun (now : Instant) => ?_⟩
  change IsWorkFor _ (ite _ _ _)
  split
  · refine ⟨isAbout_of_not_isCollaboration rfl _, ?_⟩
    rintro (_ | _)
    · exact hcheck
    · exact rfl
  · exact hcheck

theorem cycle_isWorkFor (manager : RotationManager) :
    IsWorkFor manager.identity manager.cycle := by
  refine ⟨isAbout_of_not_isCollaboration rfl _, ?_⟩
  rintro (_ | _)
  · cases hpending : manager.pending with
    | some generation => exact manager.rotated_isWorkFor
    | none =>
        apply manager.loadOrGenerate_isWorkFor.bind
        rintro ⟨failure | ca, next⟩ hidentity
        · exact hidentity
        · rw [← hidentity]
          exact next.waitAndRotate_isWorkFor ca
  · exact rfl

end RotationManager

/-- What one manager is answered but by the collaborators: the time, chance, cancellation, fresh
keys and serial numbers, all by what has been asked and answered so far. -/
abbrev Circumstances := ManagerTranscript → (request : ManagerRequest) → request.Answer

/-- What collaborators with a state answer to a request. Random octets name the version that is
written, if one is; what the collaborators are not asked for has its answer already. -/
abbrev Reply (σ : Type) :=
  σ → (random : Octets) → (request : ManagerRequest) → request.Answer → request.Answer × σ

/-- A manager at work: what it has asked so far, how its cycles ended, and what is left of the
current one. -/
structure Worker where
  past : ManagerTranscript
  ended : List (Except Failure CycleOutcome × RotationManager)
  rest : Work (Except Failure CycleOutcome × RotationManager)

namespace Worker

variable {σ : Type} {reply : Reply σ}

def start (manager : RotationManager) : Worker := ⟨[], [], manager.cycle⟩

/-- Makes the next request, or ends the cycle and begins another. -/
def step (reply : Reply σ) (met : Circumstances) (random : Octets) (worker : Worker)
    (shared : σ) : Worker × σ :=
  match worker.rest with
  | .done (outcome, manager) =>
    (⟨worker.past, worker.ended ++ [(outcome, manager)], manager.cycle⟩, shared)
  | .ask request next =>
    let (answer, shared) := reply shared random request (met worker.past request)
    (⟨worker.past ++ [⟨request, answer⟩], worker.ended, next answer⟩, shared)

/-- The same step on a worker that has what is shared to itself. -/
def advance (reply : Reply σ) (met : Circumstances) (random : Octets) (state : Worker × σ) :
    Worker × σ := state.1.step reply met random state.2

/-- A worker that asks about one identity alone, in this cycle and in those that follow. -/
def IsFor (id : WebhookIdentity) (worker : Worker) : Prop :=
  RotationManager.IsWorkFor id worker.rest

theorem isFor_start (manager : RotationManager) : (start manager).IsFor manager.identity :=
  manager.cycle_isWorkFor

theorem IsFor.step {id : WebhookIdentity} {worker : Worker} (h : worker.IsFor id)
    (met : Circumstances) (random : Octets) (shared : σ) :
    (worker.step reply met random shared).1.IsFor id := by
  rcases worker with ⟨past, ended, ⟨outcome, manager⟩ | ⟨request, next⟩⟩
  · obtain rfl : manager.identity = id := h
    exact manager.cycle_isWorkFor
  · exact h.2 _

/-- A worker whose requests are answered as in a run of its cycle, while nothing changes that is
shared, ends the cycle like the run. -/
theorem iterate_step_of_yields {met : Circumstances} {random : Octets} {shared : σ}
    {program : Work (Except Failure CycleOutcome × RotationManager)}
    {transcript : ManagerTranscript} {result : Except Failure CycleOutcome × RotationManager}
    (h : program.Yields transcript result) (past : ManagerTranscript)
    (ended : List (Except Failure CycleOutcome × RotationManager))
    (hanswers : ∀ exchange ∈ transcript, ∀ past,
      reply shared random exchange.request (met past exchange.request) =
        (exchange.answer, shared)) :
    (advance reply met random)^[transcript.length + 1] (⟨past, ended, program⟩, shared) =
      (⟨past ++ transcript, ended ++ [result], result.2.cycle⟩, shared) := by
  -- The past grows with every exchange, so the answers have to be right for each past.
  induction h generalizing past with
  | done value =>
      rw [List.append_nil]
      rfl
  | @ask request next answer rest value hrest ih =>
      have hanswer := hanswers ⟨request, answer⟩ List.mem_cons_self past
      have hnext := ih (past ++ [⟨request, answer⟩]) fun exchange hmem =>
        hanswers exchange (List.mem_cons_of_mem _ hmem)
      rw [List.append_assoc, List.singleton_append] at hnext
      rw [List.length_cons, Function.iterate_succ_apply, ← hnext]
      simp only [advance, step, hanswer]

theorem prefix_step (met : Circumstances) (random : Octets) (worker : Worker) (shared : σ) :
    worker.ended <+: (worker.step reply met random shared).1.ended := by
  rcases worker with ⟨past, ended, _ | _⟩
  · exact List.prefix_append _ _
  · exact List.prefix_rfl

theorem prefix_iterate_step (met : Circumstances) (random : Octets) (count : Nat)
    (state : Worker × σ) :
    state.1.ended <+: ((advance reply met random)^[count] state).1.ended := by
  induction count generalizing state with
  | zero => exact List.prefix_rfl
  | succ count ih => exact (prefix_step met random state.1 state.2).trans (ih _)

end Worker

/-- What is stored and published for one identity. -/
structure Holding where
  material : Option TlsMaterial
  bundle : Option Octets

namespace Holding

/-- Collaborators that keep things for one identity only. -/
def reply : Reply Holding
  | held, _, .get _, _ => (.ok held.material, held)
  | held, _, .put _ material, _ => (.ok (), { held with material := some material })
  | held, _, .getBundle _, _ => (.ok held.bundle, held)
  | held, _, .putBundle _ bundle, _ => (.ok (), { held with bundle := some bundle })
  | held, _, _, answer => (answer, held)

def step (met : Circumstances) : Worker × Holding → Worker × Holding :=
  Worker.advance reply met []

end Holding

/-- Collaborators that many managers share serve those of one identity as if there were no others.
What they keep for it can be seen in their state, and requests about other identities that are
accepted do not change it. -/
structure Separates {σ : Type} (reply : Reply σ) (id : WebhookIdentity)
    (holds : σ → Holding → Prop) : Prop where
  serves {state : σ} {held : Holding} (random other : Octets) {request : ManagerRequest}
    (answer : request.Answer) : holds state held → random.length = 16 → request.IsAbout id →
      (reply state random request answer).1 = (held.reply other request answer).1 ∧
        holds (reply state random request answer).2 (held.reply other request answer).2
  spares {state : σ} {held : Holding} {random : Octets} {request : ManagerRequest}
    {other : WebhookIdentity} (answer : request.Answer) : holds state held →
      random.length = 16 → request.IsAbout other → other.check = .ok () → other ≠ id →
        holds (reply state random request answer).2 held

section separation

variable {σ : Type} {reply : Reply σ} {id other : WebhookIdentity}
  {holds : σ → Holding → Prop} {state : σ} {held : Holding} {worker : Worker} {random : Octets}

theorem Separates.step (h : Separates reply id holds) (hholds : holds state held)
    (hworker : worker.IsFor id) (hrandom : random.length = 16) (met : Circumstances) :
    (worker.step reply met random state).1 = (Holding.step met (worker, held)).1 ∧
      holds (worker.step reply met random state).2 (Holding.step met (worker, held)).2 := by
  rcases worker with ⟨past, ended, ⟨outcome, manager⟩ | ⟨request, next⟩⟩
  · exact ⟨rfl, hholds⟩
  · obtain ⟨hanswer, hafter⟩ := h.serves random [] (met past request) hholds hrandom hworker.1
    refine ⟨?_, hafter⟩
    simp only [Worker.step, Holding.step, Worker.advance, hanswer]

theorem Separates.step_of_ne (h : Separates reply id holds) (hholds : holds state held)
    (hworker : worker.IsFor other) (hrandom : random.length = 16)
    (haccepted : other.check = .ok ()) (hne : other ≠ id) (met : Circumstances) :
    holds (worker.step reply met random state).2 held := by
  rcases worker with ⟨past, ended, ⟨outcome, manager⟩ | ⟨request, next⟩⟩
  · exact hholds
  · exact h.spares (met past request) hholds hrandom hworker.1 haccepted hne

end separation

/-- A turn: the manager whose turn it is, and the octets that name a version if it writes one. -/
structure Turn (ι : Type) where
  manager : ι
  random : Octets
  isUuid : random.length = 16

/-- Managers at work, and the state of the collaborators that they share. -/
structure Fleet (ι σ : Type) where
  workers : ι → Worker
  shared : σ

namespace Fleet

variable {ι σ : Type} [DecidableEq ι] {reply : Reply σ}

def start (managers : ι → RotationManager) (shared : σ) : Fleet ι σ :=
  ⟨fun i => .start (managers i), shared⟩

/-- The manager whose turn it is takes a step. -/
def step (reply : Reply σ) (met : ι → Circumstances) (fleet : Fleet ι σ) (turn : Turn ι) :
    Fleet ι σ :=
  let next := (fleet.workers turn.manager).step reply (met turn.manager) turn.random fleet.shared
  ⟨Function.update fleet.workers turn.manager next.1, next.2⟩

def run (reply : Reply σ) (met : ι → Circumstances) (fleet : Fleet ι σ)
    (schedule : List (Turn ι)) : Fleet ι σ :=
  schedule.foldl (step reply met) fleet

def turnsOf (i : ι) (schedule : List (Turn ι)) : Nat := schedule.countP (·.manager = i)

theorem workers_step_self (met : ι → Circumstances) (fleet : Fleet ι σ) (turn : Turn ι) :
    (fleet.step reply met turn).workers turn.manager =
      ((fleet.workers turn.manager).step reply (met turn.manager) turn.random fleet.shared).1 :=
  Function.update_self ..

theorem workers_step_of_ne (met : ι → Circumstances) (fleet : Fleet ι σ) {turn : Turn ι} {i : ι}
    (h : i ≠ turn.manager) : (fleet.step reply met turn).workers i = fleet.workers i :=
  Function.update_of_ne h ..

theorem run_append (met : ι → Circumstances) (fleet : Fleet ι σ)
    (before after : List (Turn ι)) :
    fleet.run reply met (before ++ after) = (fleet.run reply met before).run reply met after :=
  List.foldl_append

theorem workers_run_of_ne (met : ι → Circumstances) (fleet : Fleet ι σ) {schedule : List (Turn ι)}
    {i : ι} (h : ∀ turn ∈ schedule, i ≠ turn.manager) :
    (fleet.run reply met schedule).workers i = fleet.workers i := by
  induction schedule generalizing fleet with
  | nil => rfl
  | cons turn schedule ih =>
      have hrest := ih (fleet.step reply met turn) fun later hmem =>
        h later (List.mem_cons_of_mem _ hmem)
      rw [workers_step_of_ne met fleet (h turn List.mem_cons_self)] at hrest
      exact hrest

theorem workers_run_replicate (met : ι → Circumstances) (fleet : Fleet ι σ) (turn : Turn ι)
    (count : Nat) :
    (fleet.run reply met (List.replicate count turn)).workers turn.manager =
      ((Worker.advance reply (met turn.manager) turn.random)^[count]
        (fleet.workers turn.manager, fleet.shared)).1 := by
  induction count generalizing fleet with
  | zero => rfl
  | succ count ih =>
      have hrest := ih (fleet.step reply met turn)
      rw [workers_step_self] at hrest
      exact hrest

theorem prefix_ended_of_yields {met : ι → Circumstances} {fleet : Fleet ι σ} {turn : Turn ι}
    {manager : RotationManager} {transcript : ManagerTranscript}
    {result : Except Failure CycleOutcome × RotationManager} {count : Nat}
    (hworker : fleet.workers turn.manager = .start manager)
    (h : manager.cycle.Yields transcript result) (hcount : transcript.length < count)
    (hanswers : ∀ exchange ∈ transcript, ∀ past,
      reply fleet.shared turn.random exchange.request (met turn.manager past exchange.request) =
        (exchange.answer, fleet.shared)) :
    [result] <+:
      ((fleet.run reply met (List.replicate count turn)).workers turn.manager).ended := by
  obtain ⟨more, rfl⟩ := Nat.exists_eq_add_of_lt hcount
  rw [workers_run_replicate, hworker, Worker.start, Nat.add_right_comm, Nat.add_comm,
    Function.iterate_add_apply, Worker.iterate_step_of_yields h [] [] hanswers]
  exact Worker.prefix_iterate_step _ _ more (⟨[] ++ transcript, [result], _⟩, fleet.shared)

theorem isFor_step {identities : ι → WebhookIdentity} {fleet : Fleet ι σ}
    (h : ∀ i, (fleet.workers i).IsFor (identities i)) (met : ι → Circumstances) (turn : Turn ι)
    (i : ι) : ((fleet.step reply met turn).workers i).IsFor (identities i) := by
  rcases eq_or_ne i turn.manager with rfl | hne
  · rw [workers_step_self]
    exact (h _).step _ _ _
  · rw [workers_step_of_ne met fleet hne]
    exact h i

/-- In a fleet of managers for identities that are all different, each gets on as if it were alone,
turn by turn. -/
theorem run_of_separates (identities : ι → WebhookIdentity) (i : ι) {holds : σ → Holding → Prop}
    {fleet : Fleet ι σ} {held : Holding} (hreply : Separates reply (identities i) holds)
    (hdistinct : Function.Injective identities) (haccepted : ∀ j, (identities j).check = .ok ())
    (met : ι → Circumstances) (hworkers : ∀ j, (fleet.workers j).IsFor (identities j))
    (hholds : holds fleet.shared held) (schedule : List (Turn ι)) :
    let alone := (Holding.step (met i))^[turnsOf i schedule] (fleet.workers i, held)
    (fleet.run reply met schedule).workers i = alone.1 ∧
      holds (fleet.run reply met schedule).shared alone.2 := by
  -- After each turn the shared state shows what the manager would hold alone: its own turns move
  -- both, the turns of the others move neither.
  induction schedule generalizing fleet held with
  | nil => exact ⟨rfl, hholds⟩
  | cons turn schedule ih =>
      have hnext : ∀ j, ((fleet.step reply met turn).workers j).IsFor (identities j) :=
        isFor_step hworkers met turn
      rcases eq_or_ne turn.manager i with rfl | hne
      · obtain ⟨hworker, hafter⟩ :=
          hreply.step hholds (hworkers turn.manager) turn.isUuid (met turn.manager)
        have hrest := ih hnext hafter
        rw [workers_step_self, hworker] at hrest
        rw [turnsOf, List.countP_cons_of_pos (by simp), ← turnsOf, Function.iterate_succ_apply]
        exact hrest
      · have hafter := hreply.step_of_ne hholds (hworkers turn.manager) turn.isUuid
          (haccepted turn.manager) (hdistinct.ne hne) (met turn.manager)
        have hrest := ih hnext hafter
        rw [workers_step_of_ne met fleet hne.symm] at hrest
        rw [turnsOf, List.countP_cons_of_neg (by simpa using hne), ← turnsOf]
        exact hrest

end Fleet

end CertRotation
