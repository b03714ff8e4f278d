import CertRotation.Files.Work
import CertRotation.Proofs.Program.Transcript

namespace CertRotation

variable {α β : Type}

def FileOperation.IsRead : FileOperation → Prop
  | probe _ | readLink _ | read _ => True
  | _ => False

namespace FileProgram

/-- What a program ends with when it runs alone on a tree, and the tree at its end. -/
def runOn (program : FileProgram α) (tree : FileTree) : α × FileTree := program.run tree

theorem runOn_pure (value : α) (tree : FileTree) :
    runOn (pure value) tree = (value, tree) := rfl

theorem runOn_bind (program : FileProgram α) (next : α → FileProgram β) (tree : FileTree) :
    runOn (program >>= next) tree =
      runOn (next (runOn program tree).1) (runOn program tree).2 := by
  induction program generalizing tree with
  | done value => rfl
  | ask request resume ih => exact ih _ _

theorem runOn_call (operation : FileOperation) (tree : FileTree) :
    runOn (call operation) tree = operation.run tree := rfl

theorem tree_eq_of_onlyAsks {program : FileProgram α}
    (h : program.OnlyAsks FileOperation.IsRead) (tree : FileTree) :
    (runOn program tree).2 = tree := by
  induction program with
  | done value => rfl
  | ask operation resume ih =>
      have hread : (FileOperation.run operation tree).2 = tree := by
        have hoperation := h.1
        cases operation <;> first | rfl | cases hoperation
      change (runOn (resume (FileOperation.run operation tree).1)
        (FileOperation.run operation tree).2).2 = tree
      rw [hread]
      exact ih _ (h.2 _)

end FileProgram

namespace FileWork

open FileProgram (runOn runOn_bind)

variable {tree between after : FileTree}

/-- Work that runs alone on a tree ends with a value and leaves another tree behind. -/
def Runs (work : FileWork α) (tree : FileTree) (value : α) (after : FileTree) : Prop :=
  runOn work.run tree = (.ok value, after)

theorem runs_pure (value : α) (tree : FileTree) : (pure value : FileWork α).Runs tree value tree :=
  rfl

theorem Runs.bind {work : FileWork α} {next : α → FileWork β} {value : α} {result : β}
    (h : work.Runs tree value between) (hnext : (next value).Runs between result after) :
    (work >>= next).Runs tree result after := by
  rw [Runs, ExceptT.run_bind, runOn_bind, h]
  exact hnext

theorem runOn_bind_of_error {work : FileWork α} {next : α → FileWork β} {failure : Failure}
    (h : runOn work.run tree = (.error failure, after)) :
    runOn (work >>= next).run tree = (.error failure, after) := by
  rw [ExceptT.run_bind, runOn_bind, h]
  rfl

theorem Runs.runOn_bind {work : FileWork α} {next : α → FileWork β} {value : α}
    (h : work.Runs tree value between) :
    runOn (work >>= next).run tree = runOn (next value).run between := by
  rw [ExceptT.run_bind, FileProgram.runOn_bind, h]

theorem runOn_call_of_error {operation : FileOperation} {fault : FileFault}
    (h : operation.run tree = (.error fault, after)) (failure : Failure) :
    runOn (call operation failure).run tree = (.error failure, after) := by
  rw [call, ExceptT.run_mk, FileProgram.runOn_bind, FileProgram.runOn_call, h]
  rfl

theorem runs_attempt {operation : FileOperation} {answer : Except FileFault operation.Value}
    (h : operation.run tree = (answer, after)) : (attempt operation).Runs tree answer after := by
  refine (runOn_bind (FileProgram.call operation) (pure ∘ Except.ok) tree).trans ?_
  rw [FileProgram.runOn_call, h]
  rfl

theorem runs_call {operation : FileOperation} {value : operation.Value}
    (h : operation.run tree = (.ok value, after)) (failure : Failure) :
    (call operation failure).Runs tree value after := by
  rw [Runs, call, ExceptT.run_mk, runOn_bind, FileProgram.runOn_call, h]
  rfl

theorem Runs.of_bind {work : FileWork α} {next : α → FileWork β} {result : β}
    (h : (work >>= next).Runs tree result after) :
    ∃ value between, work.Runs tree value between ∧ (next value).Runs between result after := by
  rw [Runs, ExceptT.run_bind, FileProgram.runOn_bind] at h
  rcases hfirst : runOn work.run tree with ⟨failure | value, between⟩
  · rw [hfirst] at h
    cases h
  · rw [hfirst] at h
    exact ⟨value, between, hfirst, h⟩

theorem Runs.of_call {operation : FileOperation} {value : operation.Value} {failure : Failure}
    (h : (call operation failure).Runs tree value after) :
    operation.run tree = (.ok value, after) := by
  rw [Runs, call, ExceptT.run_mk, FileProgram.runOn_bind, FileProgram.runOn_call] at h
  rcases hcall : operation.run tree with ⟨fault | answer, between⟩
  · rw [hcall] at h
    cases h
  · rw [hcall] at h
    cases h
    rfl

theorem runs_readOptional {path : String} {contents : Octets}
    (h : FileOperation.run (.read path) tree = (.ok contents, tree)) (failure : Failure) :
    (readOptional path failure).Runs tree (some contents) tree :=
  (runs_attempt h).bind (runs_pure _ tree)

theorem runs_readOptional_none {path : String}
    (h : FileOperation.run (.read path) tree = (.error .notFound, tree)) (failure : Failure) :
    (readOptional path failure).Runs tree none tree :=
  (runs_attempt h).bind (runs_pure _ tree)

theorem runs_discard {work : FileWork α} {value : α} (h : work.Runs tree value after) :
    (discard work).Runs tree () after := by
  refine (runOn_bind work.run _ tree).trans ?_
  rw [h]
  rfl

theorem onlyAsks_attempt {allowed : FileOperation → Prop} {operation : FileOperation}
    (h : allowed operation) : (attempt operation).run.OnlyAsks allowed :=
  ⟨h, fun _ => trivial⟩

theorem onlyAsks_readOptional {allowed : FileOperation → Prop} {path : String}
    (h : allowed (.read path)) (failure : Failure) :
    (readOptional path failure).run.OnlyAsks allowed := by
  apply (onlyAsks_attempt h).run_bind
  rintro (fault | contents)
  · cases fault <;> exact Program.onlyAsks_pure _
  · exact Program.onlyAsks_pure _

/-- Work that runs alone on a tree is done with a value and a tree of one kind, or fails with a tree
of another kind. -/
def Ends (work : FileWork α) (tree : FileTree) (done : α → FileTree → Prop)
    (failed : FileTree → Prop) : Prop :=
  match runOn work.run tree with
  | (.ok value, after) => done value after
  | (.error _, after) => failed after

section ends

variable {done : α → FileTree → Prop} {next : β → FileTree → Prop} {failed : FileTree → Prop}

theorem ends_throw (failure : Failure) (h : failed tree) :
    (throw failure : FileWork α).Ends tree done failed := h

theorem Ends.bind {work : FileWork α} {rest : α → FileWork β} (h : work.Ends tree done failed)
    (hrest : ∀ value between, done value between → (rest value).Ends between next failed) :
    (work >>= rest).Ends tree next failed := by
  rw [Ends, ExceptT.run_bind, runOn_bind]
  rw [Ends] at h
  rcases hfirst : runOn work.run tree with ⟨failure | value, between⟩
  · rw [hfirst] at h
    exact h
  · rw [hfirst] at h
    exact hrest value between h

theorem ends_of_runs {work : FileWork α} {value : α} (h : work.Runs tree value after)
    (hdone : done value after) : work.Ends tree done failed := by
  rw [Ends, h]
  exact hdone

theorem ends_call {operation : FileOperation} {done : operation.Value → FileTree → Prop}
    {failure : Failure}
    (hdone : ∀ value, (operation.run tree).1 = .ok value → done value (operation.run tree).2)
    (hfailed : failed (operation.run tree).2) : (call operation failure).Ends tree done failed := by
  rw [Ends]
  rcases hcall : operation.run tree with ⟨fault | value, after⟩
  · rw [hcall] at hfailed
    rw [runOn_call_of_error hcall]
    exact hfailed
  · rw [hcall] at hdone
    rw [runs_call hcall]
    exact hdone value rfl

end ends

/-- Work that changes neither of two trees gives the same on both. -/
def Alike (work : FileWork α) (tree after : FileTree) : Prop :=
  ∃ answer, runOn work.run tree = (answer, tree) ∧ runOn work.run after = (answer, after)

section alike

theorem alike_pure (value : α) : (pure value : FileWork α).Alike tree after :=
  ⟨.ok value, rfl, rfl⟩

theorem alike_throw (failure : Failure) : (throw failure : FileWork α).Alike tree after :=
  ⟨.error failure, rfl, rfl⟩

theorem Alike.bind {work : FileWork α} {next : α → FileWork β} (h : work.Alike tree after)
    (hnext : ∀ value, work.Runs tree value tree → (next value).Alike tree after) :
    (work >>= next).Alike tree after := by
  obtain ⟨failure | value, htree, hafter⟩ := h
  · exact ⟨.error failure, runOn_bind_of_error htree, runOn_bind_of_error hafter⟩
  · obtain ⟨answer, htree', hafter'⟩ := hnext value htree
    exact ⟨answer, (Runs.runOn_bind htree).trans htree', (Runs.runOn_bind hafter).trans hafter'⟩

theorem alike_attempt {operation : FileOperation} {answer : Except FileFault operation.Value}
    (htree : operation.run tree = (answer, tree)) (hafter : operation.run after = (answer, after)) :
    (attempt operation).Alike tree after :=
  ⟨.ok answer, runs_attempt htree, runs_attempt hafter⟩

theorem alike_readOptional {path : String} (h : after.read path = tree.read path)
    (failure : Failure) : (readOptional path failure).Alike tree after := by
  have hread : (FileOperation.read path).run after = (tree.read path, after) := by
    rw [← h]
    rfl
  apply (alike_attempt rfl hread).bind
  rintro (fault | contents) -
  · cases fault with
    | notFound => exact alike_pure _
    | _ => exact alike_throw _
  · exact alike_pure _

theorem Alike.answer_eq {work : FileWork α} (h : work.Alike tree after) :
    (runOn work.run after).1 = (runOn work.run tree).1 := by
  obtain ⟨answer, htree, hafter⟩ := h
  rw [htree, hafter]

end alike

section transcripts

variable {transcript : Transcript FileOperation.interface}

theorem yields_attempt_bind_iff {operation : FileOperation}
    {next : Except FileFault operation.Value → FileWork β} {result : Except Failure β} :
    (attempt operation >>= next).run.Yields transcript result ↔
      ∃ answer rest, transcript = ⟨operation, answer⟩ :: rest ∧
        (next answer).run.Yields rest result :=
  Program.yields_ask_iff

theorem yields_readOptional_some {path : String} {failure : Failure} {contents : Octets}
    (h : (readOptional path failure).run.Yields transcript (.ok (some contents))) :
    transcript = [⟨.read path, .ok contents⟩] := by
  obtain ⟨fault | found, rest, rfl, hrest⟩ := yields_attempt_bind_iff.mp h
  · cases fault with
    | _ => cases (Program.yields_done_iff.mp hrest).2
  · obtain ⟨rfl, heq⟩ := Program.yields_done_iff.mp hrest
    cases heq
    rfl

end transcripts

end FileWork

end CertRotation
