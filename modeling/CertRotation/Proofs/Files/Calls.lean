import CertRotation.Files.Operation
import CertRotation.Proofs.Files.PathAbove
import CertRotation.Proofs.Files.Walk

namespace CertRotation

namespace FileTree

variable {tree : FileTree} {directory name : String} {location : Location}

theorem Opens.find_join (h : tree.Opens directory location) (hname : FilePath.IsName name)
    {followLast : Bool} {entry : FileEntry}
    (hentry : tree.entry? (location ++ [name]) = some entry)
    (hlink : followLast = true → ∀ target, entry ≠ .link target) :
    tree.find (FilePath.join directory name) followLast = .ok (location ++ [name], entry) := by
  refine find_eq_ok_iff.mpr ⟨h.locate_join hname ?_, hentry⟩
  intro hfollow target hlinked
  rw [hentry] at hlinked
  exact hlink hfollow target (Option.some_inj.mp hlinked)

theorem Opens.find_join_none (h : tree.Opens directory location) (hname : FilePath.IsName name)
    (hentry : tree.entry? (location ++ [name]) = none) (followLast : Bool) :
    tree.find (FilePath.join directory name) followLast = .error .notFound := by
  refine find_eq_notFound_iff.mpr (.inr ⟨location ++ [name], h.locate_join hname ?_, hentry⟩)
  intro _ target hlinked
  rw [hentry] at hlinked
  cases hlinked

theorem Lacks.find_join (h : tree.Lacks directory) (hname : FilePath.IsName name)
    (followLast : Bool) :
    tree.find (FilePath.join directory name) followLast = .error .notFound :=
  find_eq_notFound_iff.mpr (.inl (h.locate_join hname followLast))

theorem append_singleton_ne_nil (location : Location) (name : String) : location ++ [name] ≠ [] :=
  List.append_ne_nil_of_right_ne_nil location (List.cons_ne_nil name [])

theorem follow_withoutSlashesAtEnd_join (tree : FileTree) (directory : String)
    (hname : FilePath.IsPart name) :
    tree.follow false maxLinks []
        (FilePath.steps (FilePath.withoutSlashesAtEnd (FilePath.join directory name))) =
      tree.locate (FilePath.join directory name) false := by
  rw [FilePath.withoutSlashesAtEnd_join directory hname,
    locate_eq_of_ne (FilePath.join_ne_empty directory hname)]

theorem Opens.makeDirectory_join (h : tree.Opens directory location)
    (hname : FilePath.IsName name) :
    tree.makeDirectory (FilePath.join directory name) =
      match tree.entry? (location ++ [name]) with
      | some _ => .error .exists
      | none => .ok (tree.insert (location ++ [name]) .directory) := by
  have hlocate : tree.locate (FilePath.join directory name) false = .ok (location ++ [name]) :=
    h.locate_join hname (by simp)
  rw [makeDirectory, follow_withoutSlashesAtEnd_join tree directory hname.isPart, hlocate]
  rfl

theorem Lacks.makeDirectory_join (h : tree.Lacks directory) (hname : FilePath.IsName name) :
    tree.makeDirectory (FilePath.join directory name) = .error .notFound := by
  rw [makeDirectory, follow_withoutSlashesAtEnd_join tree directory hname.isPart,
    h.locate_join hname false]
  rfl

theorem Opens.removeTree_join (h : tree.Opens directory location) (hname : FilePath.IsName name)
    (hentry : tree.entry? (location ++ [name]) = some .directory) :
    tree.removeTree (FilePath.join directory name) =
      (.ok (), (tree.clear (location ++ [name])).erase (location ++ [name])) := by
  have hlocate : tree.locate (FilePath.join directory name) false = .ok (location ++ [name]) :=
    h.locate_join hname (by simp)
  have hlast : [some ".", some ".."].contains (FilePath.steps (FilePath.withoutSlashesAtEnd
      (FilePath.join directory name))).getLast? = false := by
    rw [FilePath.withoutSlashesAtEnd_join directory hname.isPart,
      FilePath.steps_join directory hname.isPart, List.getLast?_concat]
    simp [hname.ne_dot, hname.ne_dots]
  rw [removeTree, h.find_join hname hentry (by simp)]
  simp only [hlast, follow_withoutSlashesAtEnd_join tree directory hname.isPart, hlocate]
  simp

end FileTree

namespace FileOperation

open FileTree (Opens entry?_insert append_singleton_ne_nil)

variable {tree : FileTree} {directory name : String} {location : Location}

section reading

variable {path : String} {contents : Octets} {isPrivate : Bool} {entry : FileEntry}
  {target : String}

theorem run_read (h : tree.find path true = .ok (location, .file contents isPrivate)) :
    run (.read path) tree = (.ok contents, tree) := by
  rw [run, FileTree.read, h]
  rfl

theorem run_read_notFound (h : tree.find path true = .error .notFound) :
    run (.read path) tree = (.error .notFound, tree) := by
  rw [run, FileTree.read, h]
  rfl

theorem run_readLink (h : tree.find path false = .ok (location, .link target)) :
    run (.readLink path) tree = (.ok target, tree) := by
  rw [run, FileTree.readLink, h]
  rfl

theorem run_readLink_notFound (h : tree.find path false = .error .notFound) :
    run (.readLink path) tree = (.error .notFound, tree) := by
  rw [run, FileTree.readLink, h]
  rfl

theorem run_probe (h : tree.find path false = .ok (location, entry)) :
    run (.probe path) tree = (.ok (), tree) := by
  rw [run, FileTree.probe, h]
  rfl

theorem run_probe_notFound (h : tree.find path false = .error .notFound) :
    run (.probe path) tree = (.error .notFound, tree) := by
  rw [run, FileTree.probe, h]
  rfl

theorem run_removeFile_notFound (h : tree.find path false = .error .notFound) :
    run (.removeFile path) tree = (.error .notFound, tree) := by
  rw [run, FileTree.removeFile, h]
  rfl

theorem run_removeTree_notFound (h : tree.find path false = .error .notFound) :
    run (.removeTree path) tree = (.error .notFound, tree) := by
  rw [run, FileTree.removeTree, h]

end reading

theorem run_removeFile {entry : FileEntry} (h : tree.Opens directory location)
    (hname : FilePath.IsName name) (hentry : tree.entry? (location ++ [name]) = some entry)
    (hfile : entry ≠ .directory) :
    ∃ after, run (.removeFile (FilePath.join directory name)) tree = (.ok (), after) ∧
      after.entry? = Function.update tree.entry? (location ++ [name]) none := by
  refine ⟨tree.erase (location ++ [name]), ?_, ?_⟩
  · rw [run, FileTree.removeFile, h.find_join hname hentry (by simp)]
    rcases entry with _ | _ | _
    · exact absurd rfl hfile
    · rfl
    · rfl
  · exact FileTree.entry?_erase tree (append_singleton_ne_nil location name)

theorem run_removeFile_directory (h : tree.Opens directory location)
    (hname : FilePath.IsName name)
    (hentry : tree.entry? (location ++ [name]) = some .directory) :
    run (.removeFile (FilePath.join directory name)) tree = (.error .isDirectory, tree) := by
  rw [run, FileTree.removeFile, h.find_join hname hentry (by simp)]
  rfl

theorem run_write (h : tree.Opens directory location) (hname : FilePath.IsName name)
    (hentry : tree.entry? (location ++ [name]) = none) (contents : Octets) :
    ∃ after, run (.write (FilePath.join directory name) contents) tree = (.ok (), after) ∧
      after.entry? =
        Function.update tree.entry? (location ++ [name]) (some (.file contents false)) := by
  have hlocate : tree.locate (FilePath.join directory name) true = .ok (location ++ [name]) :=
    h.locate_join hname (by simp [hentry])
  refine ⟨tree.insert (location ++ [name]) (.file contents false), ?_, ?_⟩
  · rw [run, FileTree.write, hlocate]
    simp only [bind, Except.bind, hentry]
    rfl
  · exact entry?_insert tree (append_singleton_ne_nil location name) _

theorem run_write_file {old : Octets} {isPrivate : Bool} (h : tree.Opens directory location)
    (hname : FilePath.IsName name)
    (hentry : tree.entry? (location ++ [name]) = some (.file old isPrivate)) (contents : Octets) :
    ∃ after, run (.write (FilePath.join directory name) contents) tree = (.ok (), after) ∧
      after.entry? =
        Function.update tree.entry? (location ++ [name]) (some (.file contents isPrivate)) := by
  have hlocate : tree.locate (FilePath.join directory name) true = .ok (location ++ [name]) :=
    h.locate_join hname (by simp [hentry])
  refine ⟨tree.insert (location ++ [name]) (.file contents isPrivate), ?_, ?_⟩
  · rw [run, FileTree.write, hlocate]
    simp only [bind, Except.bind, hentry]
    rfl
  · exact entry?_insert tree (append_singleton_ne_nil location name) _

theorem run_makePrivate {contents : Octets} {isPrivate : Bool}
    (h : tree.Opens directory location) (hname : FilePath.IsName name)
    (hentry : tree.entry? (location ++ [name]) = some (.file contents isPrivate)) :
    ∃ after, run (.makePrivate (FilePath.join directory name)) tree = (.ok (), after) ∧
      after.entry? =
        Function.update tree.entry? (location ++ [name]) (some (.file contents true)) := by
  refine ⟨tree.insert (location ++ [name]) (.file contents true), ?_, ?_⟩
  · rw [run, FileTree.makePrivate, h.find_join hname hentry (by simp)]
    rfl
  · exact entry?_insert tree (append_singleton_ne_nil location name) _

theorem run_makeLink (h : tree.Opens directory location) (hname : FilePath.IsName name)
    (hentry : tree.entry? (location ++ [name]) = none) (target : String) :
    ∃ after, run (.makeLink target (FilePath.join directory name)) tree = (.ok (), after) ∧
      after.entry? =
        Function.update tree.entry? (location ++ [name]) (some (.link target)) := by
  have hlocate : tree.locate (FilePath.join directory name) false = .ok (location ++ [name]) :=
    h.locate_join hname (by simp)
  refine ⟨tree.insert (location ++ [name]) (.link target), ?_, ?_⟩
  · rw [run, FileTree.makeLink, hlocate]
    simp only [bind, Except.bind, hentry]
    rfl
  · exact entry?_insert tree (append_singleton_ne_nil location name) _

theorem run_removeTree (h : tree.Opens directory location) (hname : FilePath.IsName name)
    (hentry : tree.entry? (location ++ [name]) = some .directory) :
    ∃ after, run (.removeTree (FilePath.join directory name)) tree = (.ok (), after) ∧
      after.entry? = fun key => if location ++ [name] <+: key then none else tree.entry? key :=
  ⟨_, h.removeTree_join hname hentry,
    FileTree.entry?_erase_clear tree (append_singleton_ne_nil location name)⟩

theorem run_rename {source target : String} {entry : FileEntry}
    (h : tree.Opens directory location)
    (hsource : FilePath.IsName source) (htarget : FilePath.IsName target) (hne : source ≠ target)
    (hentry : tree.entry? (location ++ [source]) = some entry) (hfile : entry ≠ .directory)
    (hplace : tree.entry? (location ++ [target]) ≠ some .directory)
    (hempty : tree.hasEntries (location ++ [source]) = false) :
    ∃ after, run (.rename (FilePath.join directory source) (FilePath.join directory target)) tree =
        (.ok (), after) ∧
      after.entry? = Function.update (Function.update tree.entry? (location ++ [source]) none)
        (location ++ [target]) (some entry) := by
  have hlocate : tree.locate (FilePath.join directory target) false =
      .ok (location ++ [target]) := h.locate_join htarget (by simp)
  have hne' : location ++ [source] ≠ location ++ [target] := by
    simpa using hne
  obtain ⟨after, hrename, hupdate⟩ := FileTree.rename_eq
    (h.find_join hsource hentry (by simp)) hlocate hfile hplace hne' hempty
    (FileTree.not_isBelow_beside location source target)
  refine ⟨after, ?_, hupdate⟩
  rw [run, hrename]
  rfl

theorem run_rename_onto_directory {source target : String} {entry : FileEntry}
    (h : tree.Opens directory location)
    (hsource : FilePath.IsName source) (htarget : FilePath.IsName target) (hne : source ≠ target)
    (hentry : tree.entry? (location ++ [source]) = some entry) (hfile : entry ≠ .directory)
    (hplace : tree.entry? (location ++ [target]) = some .directory) :
    run (.rename (FilePath.join directory source) (FilePath.join directory target)) tree =
      (.error .isDirectory, tree) := by
  have hlocate : tree.locate (FilePath.join directory target) false =
      .ok (location ++ [target]) := h.locate_join htarget (by simp)
  rw [run, FileTree.rename_onto_directory (h.find_join hsource hentry (by simp)) hlocate hfile
    (by simpa using hne) (FileTree.not_isBelow_beside location source target) hplace]
  rfl

end FileOperation

end CertRotation
