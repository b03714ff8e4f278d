import CertRotation.Proofs.Files.Work
import CertRotation.Proofs.Program.Transcript
import CertRotation.Proofs.Store.Layout

/-!
Writers of one identity that take turns with a reader, call by call. A writer can be stopped for
good between any two calls, and a directory that is being removed loses its entries one at a time.
-/

namespace CertRotation

namespace FileOperation

/-- The tree when a removal that is under way has taken an entry below the place that it empties.
No other call shows before it is done. -/
def crumble : FileOperation → FileTree → Location → FileTree
  | removeTree path, tree, name :: rest =>
    match tree.locate path false with
    | .ok location => tree.erase (location ++ name :: rest)
    | .error _ => tree
  | _, tree, _ => tree

def crumbled (operation : FileOperation) (tree : FileTree) (losses : List Location) : FileTree :=
  losses.foldl operation.crumble tree

/-- Whether a call shows only when it is done: it does not remove a directory with what is in it. -/
def isSudden : FileOperation → Bool
  | removeTree _ => false
  | _ => true

theorem crumbled_of_isSudden {operation : FileOperation} (h : operation.isSudden = true)
    (tree : FileTree) (losses : List Location) : operation.crumbled tree losses = tree := by
  have hcrumble : ∀ below, operation.crumble tree below = tree := by
    intro below
    cases operation with
    | removeTree path => cases h
    | _ => rfl
  rw [crumbled]
  induction losses with
  | nil => rfl
  | cons below losses ih => rw [List.foldl_cons, hcrumble, ih]

end FileOperation

namespace DirectoryStore

open FileOperation (crumbled crumbled_of_isSudden)

/-- Whether a call has put a link in the place of the one to the version that is served. -/
def swaps (dir : String) : (operation : FileOperation) → Except FileFault operation.Value → Bool
  | .rename source target, .ok _ =>
    source == FilePath.join dir dataLinkDraft && target == FilePath.join dir dataLink
  | _, _ => false

/-- The versions that were switched to up to a call of the writer of one, the latest first. -/
def swappedAfter (dir : String) (version : StoredVersion) (operation : FileOperation)
    (answer : Except FileFault operation.Value) (swapped : List StoredVersion) :
    List StoredVersion :=
  if swaps dir operation answer then version :: swapped else swapped

/-- Writers of one identity on a tree: the versions that were switched to, the latest first, the
writer that runs with what is left of it, and the versions that are still to be written. -/
structure Writers where
  tree : FileTree
  swapped : List StoredVersion
  running : Option (StoredVersion × FileProgram (Except Failure Unit))
  waiting : List StoredVersion

/-- What can happen next. -/
inductive Move where
  | start
  | call
  | lose (below : Location)
deriving DecidableEq, Repr

namespace Writers

variable (store : DirectoryStore) (id : WebhookIdentity)

/-- The next writer starts, and whatever is left of the one before it will never run; or the writer
that runs makes its next call; or that call, a removal, has come some way. Nothing happens if that
is not possible. -/
def move (writers : Writers) : Move → Writers
  | .start =>
    match writers.waiting with
    | [] => writers
    | version :: waiting =>
      let program := (store.put id version.material version.name).run
      { writers with running := some (version, program), waiting }
  | .call =>
    match writers.running with
    | some (version, .ask operation next) =>
      let (answer, tree) := FileOperation.run operation writers.tree
      let swapped :=
        swappedAfter (store.identityDir id) version operation answer writers.swapped
      { writers with tree, swapped, running := some (version, next answer) }
    | _ => writers
  | .lose below =>
    match writers.running with
    | some (_, .ask operation _) =>
      { writers with tree := FileOperation.crumble operation writers.tree below }
    | _ => writers

def moves (writers : Writers) (schedule : List Move) : Writers :=
  schedule.foldl (move store id) writers

theorem move_cases (writers : Writers) (next : Move) :
    writers.move store id next = writers ∨
    (∃ version waiting, writers.waiting = version :: waiting ∧
      writers.move store id next =
        ⟨writers.tree, writers.swapped,
          some (version, (store.put id version.material version.name).run), waiting⟩) ∨
    (∃ version operation resume, writers.running = some (version, .ask operation resume) ∧
      let answer := (FileOperation.run operation writers.tree).1
      writers.move store id next =
        ⟨(FileOperation.run operation writers.tree).2,
          swappedAfter (store.identityDir id) version operation answer writers.swapped,
          some (version, resume answer), writers.waiting⟩) ∨
    ∃ version operation resume below,
      writers.running = some (version, .ask operation resume) ∧
      writers.move store id next =
        ⟨FileOperation.crumble operation writers.tree below, writers.swapped, writers.running,
          writers.waiting⟩ := by
  rcases writers with ⟨tree, swapped, running, waiting⟩
  cases next with
  | start =>
      rcases waiting with _ | ⟨version, waiting⟩
      · exact .inl rfl
      · exact .inr (.inl ⟨version, waiting, rfl, rfl⟩)
  | call =>
      rcases running with _ | ⟨version, _ | ⟨operation, resume⟩⟩
      · exact .inl rfl
      · exact .inl rfl
      · exact .inr (.inr (.inl ⟨version, operation, resume, rfl, rfl⟩))
  | lose below =>
      rcases running with _ | ⟨version, _ | ⟨operation, resume⟩⟩
      · exact .inl rfl
      · exact .inl rfl
      · exact .inr (.inr (.inr ⟨version, operation, resume, below, rfl, rfl⟩))

end Writers

/-- The calls of a reader are answered by the trees that it finds, the first call at once, and any
number of moves of the writers between one call and the next. -/
inductive Answered (store : DirectoryStore) (id : WebhookIdentity) :
    Writers → Transcript FileOperation.interface → Prop
  | nil (writers : Writers) : Answered store id writers []
  | cons {writers : Writers} {operation : FileOperation}
      {answer : Except FileFault operation.Value} {tree : FileTree} (schedule : List Move)
      {rest : Transcript FileOperation.interface}
      (hrun : operation.run writers.tree = (answer, tree))
      (hrest : Answered store id ({ writers with tree }.moves store id schedule) rest) :
      Answered store id writers (⟨operation, answer⟩ :: rest)

section guards

variable {α β : Type} (dir : String) (version : StoredVersion)
  (Holds : FileTree → List StoredVersion → Prop)

/-- Before each call of a program that writes a version, and while the call is under way, something
holds of the tree and the versions that were switched to; something else holds at the end. -/
def Guards (Ends : α → FileTree → List StoredVersion → Prop) :
    FileProgram α → FileTree → List StoredVersion → Prop
  | .done value, tree, swapped => Ends value tree swapped
  | .ask operation next, tree, swapped => ∀ losses,
    Holds (crumbled operation tree losses) swapped ∧
    let (answer, after) := FileOperation.run operation (crumbled operation tree losses)
    Guards Ends (next answer) after (swappedAfter dir version operation answer swapped)

variable {dir : String} {version : StoredVersion} {Holds : FileTree → List StoredVersion → Prop}
  {Mid : α → FileTree → List StoredVersion → Prop}
  {Ends : β → FileTree → List StoredVersion → Prop} {tree : FileTree}
  {swapped : List StoredVersion}

theorem Guards.holds {program : FileProgram β}
    (h : Guards dir version Holds Ends program tree swapped)
    (hends : ∀ value tree swapped, Ends value tree swapped → Holds tree swapped) :
    Holds tree swapped := by
  cases program with
  | done value => exact hends value tree swapped h
  | ask operation next => exact (h []).1

theorem Guards.mono {Ends' : β → FileTree → List StoredVersion → Prop} {program : FileProgram β}
    (h : Guards dir version Holds Ends program tree swapped)
    (hends : ∀ value tree swapped, Ends value tree swapped → Ends' value tree swapped) :
    Guards dir version Holds Ends' program tree swapped := by
  induction program generalizing tree swapped with
  | done value => exact hends value tree swapped h
  | ask operation resume ih =>
      intro losses
      obtain ⟨hholds, hrest⟩ := h losses
      exact ⟨hholds, ih _ hrest⟩

theorem Guards.bind {program : FileProgram α} {next : α → FileProgram β}
    (h : Guards dir version Holds Mid program tree swapped)
    (hnext : ∀ value tree swapped, Mid value tree swapped →
      Guards dir version Holds Ends (next value) tree swapped) :
    Guards dir version Holds Ends (program >>= next) tree swapped := by
  induction program generalizing tree swapped with
  | done value => exact hnext value tree swapped h
  | ask operation resume ih =>
      intro losses
      obtain ⟨hholds, hrest⟩ := h losses
      exact ⟨hholds, ih _ hrest⟩

theorem Guards.lose {operation : FileOperation}
    {next : Except FileFault operation.Value → FileProgram β}
    (h : Guards dir version Holds Ends (.ask operation next) tree swapped) (below : Location) :
    Guards dir version Holds Ends (.ask operation next) (operation.crumble tree below) swapped :=
  fun losses => h (below :: losses)

theorem Guards.call {operation : FileOperation}
    {next : Except FileFault operation.Value → FileProgram β}
    (h : Guards dir version Holds Ends (.ask operation next) tree swapped) :
    Guards dir version Holds Ends (next (operation.run tree).1) (operation.run tree).2
      (swappedAfter dir version operation (operation.run tree).1 swapped) :=
  (h []).2

variable (dir version Holds Ends) in
/-- Work that succeeds under guard. -/
def Keeps (work : FileWork β) (tree : FileTree) (swapped : List StoredVersion) : Prop :=
  Guards dir version Holds
    (fun result tree swapped => ∃ value, result = .ok value ∧ Ends value tree swapped)
    work.run tree swapped

theorem keeps_pure {value : β} (h : Ends value tree swapped) :
    Keeps dir version Holds Ends (pure value) tree swapped :=
  ⟨value, rfl, h⟩

theorem Keeps.bind {work : FileWork α} {next : α → FileWork β}
    (h : Keeps dir version Holds Mid work tree swapped)
    (hnext : ∀ value tree swapped, Mid value tree swapped →
      Keeps dir version Holds Ends (next value) tree swapped) :
    Keeps dir version Holds Ends (work >>= next) tree swapped := by
  rw [Keeps, ExceptT.run_bind]
  apply Guards.bind h
  rintro _ tree swapped ⟨value, rfl, hmid⟩
  exact hnext value tree swapped hmid

theorem Keeps.discard {Ends : Unit → FileTree → List StoredVersion → Prop} {work : FileWork α}
    (h : Keeps dir version Holds (fun _ => Ends ()) work tree swapped) :
    Keeps dir version Holds Ends (discard work) tree swapped := by
  apply Guards.bind h
  rintro _ tree swapped ⟨value, rfl, hends⟩
  exact ⟨(), rfl, hends⟩

variable {operation : FileOperation} {answer : Except FileFault operation.Value}
  {after : FileTree}

variable {value : operation.Value} {failure : Failure}

theorem keeps_call {Ends : operation.Value → FileTree → List StoredVersion → Prop}
    (hsudden : operation.isSudden = true) (hholds : Holds tree swapped)
    (hrun : operation.run tree = (.ok value, after))
    (hends : Ends value after (swappedAfter dir version operation (.ok value) swapped)) :
    Keeps dir version Holds Ends (FileWork.call operation failure) tree swapped := by
  intro losses
  rw [crumbled_of_isSudden hsudden, hrun]
  exact ⟨hholds, value, rfl, hends⟩

theorem keeps_attempt_bind {next : Except FileFault operation.Value → FileWork β}
    (hsudden : operation.isSudden = true) (hholds : Holds tree swapped)
    (hrun : operation.run tree = (answer, after))
    (hnext : Keeps dir version Holds Ends (next answer) after
      (swappedAfter dir version operation answer swapped)) :
    Keeps dir version Holds Ends (FileWork.attempt operation >>= next) tree swapped := by
  intro losses
  rw [crumbled_of_isSudden hsudden, hrun]
  exact ⟨hholds, hnext⟩

theorem keeps_call_bind {next : operation.Value → FileWork β}
    (hsudden : operation.isSudden = true) (hholds : Holds tree swapped)
    (hrun : operation.run tree = (.ok value, after))
    (hnext : Keeps dir version Holds Ends (next value) after
      (swappedAfter dir version operation (.ok value) swapped)) :
    Keeps dir version Holds Ends (FileWork.call operation failure >>= next) tree swapped := by
  intro losses
  rw [crumbled_of_isSudden hsudden, hrun]
  exact ⟨hholds, hnext⟩

end guards

section alone

variable {store : DirectoryStore} {id : WebhookIdentity} {version : StoredVersion}
  {tree : FileTree} {swapped : List StoredVersion}

/-- A writer that is left alone comes to its end. -/
theorem Guards.exists_calls {Holds : FileTree → List StoredVersion → Prop}
    {Ends : Except Failure Unit → FileTree → List StoredVersion → Prop}
    {program : FileProgram (Except Failure Unit)}
    (h : Guards (store.identityDir id) version Holds Ends program tree swapped)
    (waiting : List StoredVersion) :
    ∃ calls result after swapped',
      Writers.moves store id ⟨tree, swapped, some (version, program), waiting⟩
          (List.replicate calls .call) =
        ⟨after, swapped', some (version, .done result), waiting⟩ ∧
      Ends result after swapped' := by
  induction program generalizing tree swapped with
  | done result => exact ⟨0, result, tree, swapped, rfl, h⟩
  | ask operation resume ih =>
      obtain ⟨calls, result, after, swapped', hmoves, hends⟩ := ih _ h.call
      exact ⟨calls + 1, result, after, swapped', hmoves, hends⟩

theorem exists_answered {α : Type} (store : DirectoryStore) (id : WebhookIdentity)
    (writers : Writers) (program : FileProgram α) :
    ∃ transcript, program.Yields transcript (program.runOn writers.tree).1 ∧
      Answered store id writers transcript := by
  induction program generalizing writers with
  | done value => exact ⟨[], .done value, .nil writers⟩
  | ask operation next ih =>
      obtain ⟨rest, hyields, hanswered⟩ := ih (FileOperation.run operation writers.tree).1
        { writers with tree := (FileOperation.run operation writers.tree).2 }
      exact ⟨_, .ask hyields, .cons [] rfl hanswered⟩

end alone

end DirectoryStore

end CertRotation
