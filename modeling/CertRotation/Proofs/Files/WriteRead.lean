import CertRotation.Proofs.Fallible
import CertRotation.Proofs.Files.Walk

namespace CertRotation.FileTree

variable {tree saved : FileTree} {path : String} {contents : Octets}

/-- A location that a file may be written to: a file stands there, or nothing. -/
def IsWritable (tree : FileTree) (location : Location) : Prop :=
  ∀ entry, tree.entry? location = some entry → ∃ old isPrivate, entry = .file old isPrivate

theorem IsWritable.ne_nil {location : Location} (h : tree.IsWritable location) :
    location ≠ [] := by
  rintro rfl
  obtain ⟨old, isPrivate, heq⟩ := h .directory rfl
  cases heq

theorem IsWritable.entry?_ne {location : Location} {entry : FileEntry}
    (h : tree.IsWritable location) (hentry : ∀ old isPrivate, entry ≠ .file old isPrivate) :
    tree.entry? location ≠ some entry := by
  intro hstands
  obtain ⟨old, isPrivate, heq⟩ := h entry hstands
  exact hentry old isPrivate heq

theorem write_eq_ok (h : tree.write path contents = .ok saved) :
    ∃ location isPrivate, tree.locate path true = .ok location ∧ tree.IsWritable location ∧
      saved.entry? = Function.update tree.entry? location (some (.file contents isPrivate)) := by
  obtain ⟨location, hlocate, h⟩ := bind_eq_ok_iff.mp h
  rcases hentry : tree.entry? location with _ | _ | ⟨old, isPrivate⟩ | target
  · rw [hentry] at h
    cases h
    have hwritable : tree.IsWritable location := by
      intro entry hstands
      rw [hentry] at hstands
      cases hstands
    exact ⟨location, false, hlocate, hwritable, entry?_insert tree hwritable.ne_nil _⟩
  · rw [hentry] at h
    cases h
  · rw [hentry] at h
    cases h
    have hwritable : tree.IsWritable location := by
      intro entry hstands
      rw [hentry] at hstands
      exact ⟨old, isPrivate, (Option.some.inj hstands).symm⟩
    exact ⟨location, isPrivate, hlocate, hwritable, entry?_insert tree hwritable.ne_nil _⟩
  · rw [hentry] at h
    cases h

theorem IsWritable.keeps {location key : Location} {entry : FileEntry} {isPrivate : Bool}
    (h : tree.IsWritable location)
    (hsaved : saved.entry? =
      Function.update tree.entry? location (some (.file contents isPrivate)))
    (hkey : tree.entry? key = some entry) (hentry : ∀ old isPrivate, entry ≠ .file old isPrivate) :
    saved.entry? key = some entry := by
  rw [hsaved, Function.update_of_ne, hkey]
  rintro rfl
  exact h.entry?_ne hentry hkey

theorem Leads.write_join {links : Nat} {directory name : String} {location : Location}
    (h : tree.Leads links [] (FilePath.names directory) location) (hlinks : links ≤ maxLinks)
    (hname : FilePath.IsName name)
    (hwrite : tree.write (FilePath.join directory name) contents = .ok saved) :
    saved.Leads links [] (FilePath.names directory) location ∧
      (∃ entry, saved.entry? (location ++ [name]) = some entry ∧ entry ≠ .directory) ∧
      ∀ key, saved.entry? key = some .directory → tree.entry? key = some .directory := by
  obtain ⟨place, isPrivate, hplace, hwritable, hsaved⟩ := write_eq_ok hwrite
  refine ⟨h.mono (hwritable.keeps hsaved), ?_, ?_⟩
  · by_cases hlink : ∃ target, tree.entry? (location ++ [name]) = some (.link target)
    · obtain ⟨target, hlink⟩ := hlink
      exact ⟨.link target, hwritable.keeps hsaved hlink (by simp), by simp⟩
    · rw [h.locate_join hlinks hname fun _ target heq => hlink ⟨target, heq⟩] at hplace
      cases hplace
      rw [hsaved, Function.update_self]
      exact ⟨.file contents isPrivate, rfl, by simp⟩
  · intro key hkey
    rw [hsaved, Function.update_apply] at hkey
    split at hkey
    · cases hkey
    · exact hkey

theorem follow_of_written {limit : Nat} {directory location : Location} {steps : List String}
    {isPrivate : Bool} (h : tree.follow true limit directory steps = .ok location)
    (hwritable : tree.IsWritable location)
    (hsaved : saved.entry? =
      Function.update tree.entry? location (some (.file contents isPrivate))) :
    saved.follow true limit directory steps = .ok location := by
  have hwritten : saved.entry? location = some (.file contents isPrivate) := by
    rw [hsaved, Function.update_self]
  induction limit, directory, steps using tree.steps_induction with
  | nil limit directory =>
      rw [follow_nil] at h ⊢
      exact h
  | idle limit directory rest ih =>
      rw [follow_idle] at h ⊢
      exact ih h
  | up limit directory rest ih =>
      rw [follow_up] at h ⊢
      exact ih h
  | tooLong limit directory name rest hdot hdots hlong =>
      rw [follow_tooLong hdot hdots hlong] at h
      cases h
  | missing limit directory name rest hname hentry =>
      rw [follow_missing hname hentry] at h
      split at h
      · next hlast =>
          cases h
          rw [follow_file hname hwritten, if_pos hlast]
      · cases h
  | file limit directory name rest old wasPrivate hname hentry =>
      rw [follow_file hname hentry] at h
      split at h
      · next hlast =>
          cases h
          rw [follow_file hname hwritten, if_pos hlast]
      · cases h
  | enter limit directory name rest hname hentry ih =>
      rw [follow_enter hname hentry] at h
      rw [follow_enter hname (hwritable.keeps hsaved hentry (by simp))]
      exact ih h
  | lastLink directory name rest target hname hentry =>
      rw [follow_link_zero hname hentry (Bool.and_false _)] at h
      cases h
  | link limit directory name rest target hname hentry ih =>
      rw [follow_link hname hentry (Bool.and_false _)] at h
      rw [follow_link hname (hwritable.keeps hsaved hentry (by simp)) (Bool.and_false _)]
      exact ih h

theorem read_of_write (h : tree.write path contents = .ok saved) :
    saved.read path = .ok contents := by
  obtain ⟨location, isPrivate, hlocate, hwritable, hsaved⟩ := write_eq_ok h
  have hpath : path ≠ "" := by
    rintro rfl
    cases hlocate
  rw [locate_eq_of_ne hpath] at hlocate
  have hfind : saved.find path true = .ok (location, .file contents isPrivate) := by
    refine find_eq_ok_iff.mpr ⟨?_, ?_⟩
    · rw [locate_eq_of_ne hpath]
      exact follow_of_written hlocate hwritable hsaved
    · rw [hsaved, Function.update_self]
  rw [read, hfind]
  rfl

end CertRotation.FileTree
