import CertRotation.Proofs.Files.Calls

namespace CertRotation

namespace FileTree

variable {tree made : FileTree} {path directory name : String} {location : Location}

/-- Makes one directory, unless it is there. -/
def makeOrKeep (tree : FileTree) (path : String) : Except FileFault Unit × FileTree :=
  match tree.makeDirectory path with
  | .ok after => (.ok (), after)
  | .error fault => (if tree.isDirectory path then .ok () else .error fault, tree)

theorem makeMissing_of_makes (hpath : path ≠ "") {above : List String}
    (h : tree.makeDirectory path = .error .notFound)
    (habove : tree.makeMissing above = (.ok (), made)) :
    tree.makeMissing (path :: above) = made.makeOrKeep path := by
  cases hresult : made.makeDirectory path with
  | error fault => simp only [makeMissing.eq_3 _ _ _ hpath, h, habove, makeOrKeep, hresult]
  | ok after => simp only [makeMissing.eq_3 _ _ _ hpath, h, habove, makeOrKeep, hresult]

theorem makeMissing_of_ne (hpath : path ≠ "") {above : List String}
    (h : tree.makeDirectory path ≠ .error .notFound) :
    tree.makeMissing (path :: above) = tree.makeOrKeep path := by
  cases hresult : tree.makeDirectory path with
  | error fault =>
    cases fault with
    | notFound => exact absurd hresult h
    | _ => simp only [makeMissing.eq_3 _ _ _ hpath, makeOrKeep, hresult]
  | ok after => simp only [makeMissing.eq_3 _ _ _ hpath, makeOrKeep, hresult]

theorem makeDirectories_join (tree : FileTree) (directory : String)
    (hname : FilePath.IsPart name) :
    tree.makeDirectories (FilePath.withoutIdleAtEnd (FilePath.join directory name)) =
      tree.makeMissing (FilePath.join directory name ::
        FilePath.ancestors (FilePath.withoutIdleAtEnd directory)) := by
  rw [makeDirectories, FilePath.withoutIdleAtEnd_join directory hname,
    FilePath.ancestors_join directory hname]

theorem isDirectory_iff :
    tree.isDirectory path = true ↔
      ∃ location, tree.find path true = .ok (location, .directory) := by
  rw [isDirectory]
  split
  · rename_i location heq
    simp [heq]
  · rename_i hnot
    simp only [Bool.false_eq_true, false_iff, not_exists]
    exact hnot

theorem Opens.makeOrKeep_join (h : tree.Opens directory location) (hname : FilePath.IsName name)
    (hentry : tree.entry? (location ++ [name]) = none ∨
      tree.entry? (location ++ [name]) = some .directory) :
    ∃ changed, tree.makeOrKeep (FilePath.join directory name) = (.ok (), changed) ∧
      changed.entry? = Function.update tree.entry? (location ++ [name]) (some .directory) ∧
      (changed = tree ∨ tree.entry? (location ++ [name]) = none) := by
  rcases hentry with hentry | hentry
  · refine ⟨tree.insert (location ++ [name]) .directory, ?_, ?_, .inr hentry⟩
    · rw [makeOrKeep, h.makeDirectory_join hname, hentry]
    · exact entry?_insert tree (append_singleton_ne_nil location name) .directory
  · refine ⟨tree, ?_, ?_, .inl rfl⟩
    · have hstands : tree.isDirectory (FilePath.join directory name) = true :=
        isDirectory_iff.mpr ⟨_, h.find_join hname hentry (by simp)⟩
      rw [makeOrKeep, h.makeDirectory_join hname, hentry]
      simp only [hstands, if_true]
    · rw [← hentry, Function.update_eq_self]

/-- To make the directories of a path leads to a tree in which the path leads to a directory. It
changes nothing if they are there. -/
structure Makes (tree : FileTree) (path : String) (location : Location) (made : FileTree) :
    Prop where
  makes : tree.makeDirectories (FilePath.withoutIdleAtEnd path) = (.ok (), made)
  opens : made.Opens path location
  lacks_or : tree.Lacks path ∨ made = tree

theorem Makes.join (h : tree.Makes directory location made) (hname : FilePath.IsName name)
    (hentry : made.entry? (location ++ [name]) = none ∨
      made.entry? (location ++ [name]) = some .directory) :
    ∃ changed, tree.Makes (FilePath.join directory name) (location ++ [name]) changed ∧
      changed.entry? = Function.update made.entry? (location ++ [name]) (some .directory) := by
  have hpath := FilePath.join_ne_empty directory hname.isPart
  obtain ⟨changed, hchanged, hupdate, hkept⟩ := h.opens.makeOrKeep_join hname hentry
  refine ⟨changed, ⟨?_, ?_, ?_⟩, hupdate⟩
  · rw [makeDirectories_join tree directory hname.isPart, ← hchanged]
    rcases h.lacks_or with hlacks | rfl
    · exact makeMissing_of_makes hpath (hlacks.makeDirectory_join hname) h.makes
    · apply makeMissing_of_ne hpath
      rw [h.opens.makeDirectory_join hname]
      rcases hentry with hentry | hentry
      · rw [hentry]
        intro hfault
        cases hfault
      · rw [hentry]
        intro hfault
        cases hfault
  · have hopens : changed.Opens directory location := by
      apply h.opens.congr
      intro key hbelow
      rw [hupdate,
        Function.update_of_ne (ne_append_of_not_isBelow hbelow (List.cons_ne_nil _ _))]
    apply hopens.join hname
    rw [hupdate, Function.update_self]
  · rcases h.lacks_or with hlacks | rfl
    · exact .inl (hlacks.join hname)
    · rcases hkept with rfl | hnone
      · exact .inr rfl
      · exact .inl (h.opens.lacks_join hname hnone)

theorem Makes.run (hname : FilePath.IsName name)
    (h : tree.Makes (FilePath.join directory name) location made) :
    FileOperation.run (.makeDirectories (FilePath.join directory name)) tree = (.ok (), made) := by
  rw [FileOperation.run, ← h.makes, FilePath.withoutIdleAtEnd_join directory hname.isPart]

theorem makeDirectories_of_leads {links : Nat}
    (h : tree.Leads links [] (FilePath.names path) location) (hle : links ≤ maxLinks)
    (hstands : tree.entry? location = some .directory) :
    tree.makeDirectories path = (.ok (), tree) := by
  obtain ⟨left, hleft⟩ := Nat.exists_eq_add_of_le hle
  rw [makeDirectories, FilePath.ancestors, FilePath.ancestorsWithin_succ]
  by_cases hempty : path = ""
  · rw [hempty]
    rfl
  have hdirectory : tree.isDirectory path = true :=
    isDirectory_iff.mpr ⟨location, find_of_leads hempty h hle hstands⟩
  obtain ⟨found, entry, hfollow, hentry⟩ := h.exists_follow hstands false left
  have hmake : tree.makeDirectory path = .error .exists := by
    rw [makeDirectory, FilePath.steps_withoutSlashesAtEnd, hleft, hfollow]
    simp only [bind, Except.bind, hentry]
    rfl
  rw [makeMissing_of_ne hempty, makeOrKeep, hmake]
  · simp only [hdirectory, if_true]
  · rw [hmake]
    intro hfault
    cases hfault

theorem Opens.makes (h : tree.Opens path location) : tree.Makes path location tree := by
  refine ⟨?_, h, .inr rfl⟩
  obtain ⟨links, hle, hleads⟩ := h.leads_whole
  obtain ⟨dots, hnames, hdots⟩ := FilePath.exists_names_withoutIdleAtEnd_append path
  rw [hnames] at hleads
  exact makeDirectories_of_leads (hleads.of_append_idle hdots) hle h.stands

theorem makeMissing_of_error (hpath : path ≠ "") {above : List String} {fault : FileFault}
    (h : tree.makeDirectory path = .error .notFound)
    (habove : tree.makeMissing above = (.error fault, made)) :
    tree.makeMissing (path :: above) = (.error fault, made) := by
  simp only [makeMissing.eq_3 _ _ _ hpath, h, habove]

/-- Every call on a path, or on one that goes on from there, fails in the same way. -/
def Fails (tree : FileTree) (path : String) (fault : FileFault) : Prop :=
  ∀ (followLast : Bool) (rest : List String),
    tree.follow followLast maxLinks [] (FilePath.names path ++ rest) = .error fault

variable {fault : FileFault}

theorem Fails.join (h : tree.Fails directory fault) (hname : FilePath.IsPart name) :
    tree.Fails (FilePath.join directory name) fault := by
  intro followLast rest
  rw [FilePath.names_join directory hname, List.append_assoc]
  exact h followLast _

theorem Lacks.fails_join (h : tree.Lacks directory) (hname : FilePath.IsPart name) :
    tree.Fails (FilePath.join directory name) .notFound := by
  intro followLast rest
  rw [FilePath.names_join directory hname, List.append_assoc]
  exact h followLast _ (List.cons_ne_nil _ _)

theorem Opens.fails_join (h : tree.Opens directory location) (hname : FilePath.IsPart name)
    (hlong : maxNameOctets < name.utf8ByteSize) :
    tree.Fails (FilePath.join directory name) .nameTooLong := by
  intro followLast rest
  obtain ⟨links, hfollow⟩ := h.follow_append (List.cons_ne_nil name rest) followLast
  rw [FilePath.names_join directory hname, List.append_assoc, List.singleton_append, hfollow]
  exact follow_tooLong hname.ne_dot hname.ne_dots hlong

theorem Fails.locate_join (h : tree.Fails (FilePath.join directory name) fault)
    (hname : FilePath.IsPart name) (followLast : Bool) :
    tree.locate (FilePath.join directory name) followLast = .error fault := by
  have hfollow := h followLast []
  rw [List.append_nil, FilePath.names_join directory hname] at hfollow
  rw [FileTree.locate_join tree directory hname, hfollow]

theorem Fails.makeDirectory_join (h : tree.Fails (FilePath.join directory name) fault)
    (hname : FilePath.IsPart name) :
    tree.makeDirectory (FilePath.join directory name) = .error fault := by
  rw [makeDirectory, follow_withoutSlashesAtEnd_join tree directory hname,
    h.locate_join hname false]
  rfl

theorem Fails.makeOrKeep_join (h : tree.Fails (FilePath.join directory name) fault)
    (hname : FilePath.IsPart name) :
    tree.makeOrKeep (FilePath.join directory name) = (.error fault, tree) := by
  have hnone : tree.isDirectory (FilePath.join directory name) = false := by
    rw [isDirectory, find, h.locate_join hname true]
    rfl
  rw [makeOrKeep, h.makeDirectory_join hname]
  simp only [hnone, Bool.false_eq_true, if_false]

/-- The directories of a path cannot be made, because a name in it is too long. Those above that
name are made nevertheless, unless they are there. -/
structure Refuses (tree : FileTree) (path : String) (made : FileTree) : Prop where
  makes : tree.makeDirectories (FilePath.withoutIdleAtEnd path) = (.error .nameTooLong, made)
  fails : tree.Fails path .notFound ∨ tree.Fails path .nameTooLong ∧ made = tree

theorem Makes.refuses_join (h : tree.Makes directory location made)
    (hname : FilePath.IsPart name) (hlong : maxNameOctets < name.utf8ByteSize) :
    tree.Refuses (FilePath.join directory name) made := by
  have hpath := FilePath.join_ne_empty directory hname
  have hmade := (h.opens.fails_join hname hlong).makeOrKeep_join hname
  rcases h.lacks_or with hlacks | rfl
  · have hfails := hlacks.fails_join hname
    refine ⟨?_, .inl hfails⟩
    rw [makeDirectories_join tree directory hname, ← hmade]
    exact makeMissing_of_makes hpath (hfails.makeDirectory_join hname) h.makes
  · have hfails := h.opens.fails_join hname hlong
    refine ⟨?_, .inr ⟨hfails, rfl⟩⟩
    rw [makeDirectories_join made directory hname, ← hmade]
    apply makeMissing_of_ne hpath
    rw [hfails.makeDirectory_join hname]
    intro heq
    cases heq

theorem Refuses.join (h : tree.Refuses directory made) (hname : FilePath.IsPart name) :
    tree.Refuses (FilePath.join directory name) made := by
  have hpath := FilePath.join_ne_empty directory hname
  obtain ⟨hmakes, hfails | ⟨hfails, rfl⟩⟩ := h
  all_goals
    replace hfails := hfails.join hname
    have hmake := hfails.makeDirectory_join hname
  · refine ⟨?_, .inl hfails⟩
    rw [makeDirectories_join tree directory hname]
    exact makeMissing_of_error hpath hmake hmakes
  · refine ⟨?_, .inr ⟨hfails, rfl⟩⟩
    rw [makeDirectories_join made directory hname, makeMissing_of_ne hpath,
      hfails.makeOrKeep_join hname]
    rw [hmake]
    intro heq
    cases heq

theorem Refuses.run (hname : FilePath.IsPart name)
    (h : tree.Refuses (FilePath.join directory name) made) :
    FileOperation.run (.makeDirectories (FilePath.join directory name)) tree =
      (.error .nameTooLong, made) := by
  rw [FileOperation.run, ← h.makes, FilePath.withoutIdleAtEnd_join directory hname]

end FileTree

end CertRotation
