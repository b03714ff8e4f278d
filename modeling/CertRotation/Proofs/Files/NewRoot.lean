import CertRotation.Proofs.Files.Directories

namespace CertRotation

namespace FileTree

/-- Nothing stands at a root, and to make it leads to an empty directory. The root may lead through
links, and may be written with idle pieces at its end. -/
structure NewRoot (tree : FileTree) (root : String) (place : Location) (made : FileTree) :
    Prop where
  missing : tree.find root true = .error .notFound
  makes : tree.makeDirectories (FilePath.withoutIdleAtEnd root) = (.ok (), made)
  leads : made.find root true = .ok (place, .directory)
  isEmpty : made.hasEntries place = false

variable {tree made : FileTree} {directory name root : String} {above place : Location}

theorem NewRoot.lacks (h : NewRoot tree root place made) : tree.Lacks root := by
  have hroot : root ≠ "" := by
    rintro rfl
    cases h.leads
  exact lacks_of_find h.missing hroot

theorem NewRoot.toMakes (h : NewRoot tree root place made) : tree.Makes root place made := by
  obtain ⟨links, hle, hleads⟩ := exists_leads_of_find h.leads
  have hstands := (find_eq_ok_iff.mp h.leads).2
  exact ⟨h.makes, opens_of_leads hleads hle hstands h.isEmpty, .inl h.lacks⟩

theorem newRoot_join (hdirectory : tree.find directory true = .ok (above, .directory))
    (hname : FilePath.IsName name) (hnone : tree.entry? (above ++ [name]) = none)
    (hempty : tree.hasEntries (above ++ [name]) = false) :
    NewRoot tree (FilePath.join directory name) (above ++ [name])
      (tree.insert (above ++ [name]) .directory) := by
  have hpath := FilePath.join_ne_empty directory hname.isPart
  obtain ⟨links, hle, hleads⟩ := exists_leads_of_find hdirectory
  have hinsert := entry?_insert tree (append_singleton_ne_nil above name) .directory
  have hlocate : ∀ followLast,
      tree.locate (FilePath.join directory name) followLast = .ok (above ++ [name]) := by
    intro followLast
    obtain ⟨left, hleft⟩ := Nat.exists_eq_add_of_le hle
    rw [locate_join tree directory hname.isPart, hleft,
      hleads.follow_append (List.cons_ne_nil name []),
      follow_missing (isEntryStep_of_isName hname) hnone]
    rfl
  have hmake : tree.makeDirectory (FilePath.join directory name) =
      .ok (tree.insert (above ++ [name]) .directory) := by
    rw [makeDirectory, follow_withoutSlashesAtEnd_join tree directory hname.isPart, hlocate]
    simp only [bind, Except.bind, hnone]
    rfl
  constructor
  · exact find_eq_notFound_iff.mpr (.inr ⟨_, hlocate true, hnone⟩)
  · rw [makeDirectories_join tree directory hname.isPart, makeMissing_of_ne hpath, makeOrKeep,
      hmake]
    rw [hmake]
    intro hfault
    cases hfault
  · apply find_of_leads hpath _ hle
    · rw [hinsert, Function.update_self]
    · rw [FilePath.names_join directory hname.isPart]
      apply Leads.enter_last _ (isEntryStep_of_isName hname)
      · rw [hinsert, Function.update_self]
      · apply hleads.mono
        intro key entry hkey _
        rw [hinsert, Function.update_of_ne]
        · exact hkey
        · rintro rfl
          rw [hnone] at hkey
          cases hkey
  · rw [hasEntries_eq_false_iff] at hempty ⊢
    intro rest hrest
    rw [hinsert, Function.update_of_ne (by simpa using hrest)]
    exact hempty rest hrest

theorem NewRoot.join (h : NewRoot tree directory above made) (hname : FilePath.IsName name) :
    ∃ changed, NewRoot tree (FilePath.join directory name) (above ++ [name]) changed := by
  have hnone := hasEntries_eq_false_iff.mp h.isEmpty
  obtain ⟨changed, hmakes, hupdate⟩ := h.toMakes.join hname
    (.inl (hnone [name] (List.cons_ne_nil _ _)))
  obtain ⟨links, hle, hleads⟩ := hmakes.opens.leads_whole
  refine ⟨changed, h.lacks.find_join hname true, hmakes.makes, ?_, ?_⟩
  · exact find_of_leads (FilePath.join_ne_empty directory hname.isPart) hleads hle
      hmakes.opens.stands
  · rw [hasEntries_eq_false_iff]
    intro rest hrest
    rw [hupdate, Function.update_of_ne (by simpa using hrest), List.append_assoc]
    exact hnone ([name] ++ rest) (List.cons_ne_nil _ _)

end FileTree

end CertRotation
