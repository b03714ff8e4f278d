import CertRotation.Proofs.Files.Unused

/-!
What comes of making the directories of a path. They are there and nothing changes, or they are made
and the last of them is empty, or something is in the way and nothing changes either. A name that
is too long is noticed only when the directories above it have been made.
-/

namespace CertRotation

namespace FileTree

variable {tree before made : FileTree} {path parent last : String} {location : Location}

theorem Leads.isSolid {links : Nat} {directory : Location} {steps : List String}
    (h : tree.Leads links directory steps location) (hdirectory : tree.IsSolid directory) :
    tree.IsSolid location := by
  induction h with
  | here directory => exact hdirectory
  | idle _ ih => exact ih hdirectory
  | up _ ih => exact ih hdirectory.dropLast
  | enter _ hentry _ ih => exact ih (hdirectory.concat hentry)
  | link _ _ _ ih =>
      apply ih
      split
      · exact isSolid_nil tree
      · exact hdirectory

theorem Leads.stands {links : Nat} {steps : List String} (h : tree.Leads links [] steps location) :
    tree.entry? location = some .directory :=
  h.isSolid (isSolid_nil tree) location List.prefix_rfl

theorem lacks_of_follow (h : tree.follow false maxLinks [] (FilePath.names path) = .ok location)
    (hmissing : tree.entry? location = none) : tree.Lacks path := by
  intro followLast rest hrest
  have hnone : tree.IsMissing maxLinks [] (FilePath.names path ++ []) := by
    rw [List.append_nil]
    exact .inr ⟨location, follow_true_of_missing h hmissing, hmissing⟩
  exact follow_append_of_isMissing hnone (isSolid_nil tree) (by simp) hrest followLast

/-- The directories of a path were made, the last one where nothing was. -/
structure MakesAnew (tree : FileTree) (path : String) (location : Location) (made : FileTree) :
    Prop where
  lacks : tree.Lacks path
  fresh : tree.entry? location = none
  opens : made.Opens path location
  isEmpty : made.hasEntries location = false

theorem makesAnew_insert (hlacks : tree.Lacks path) (hfresh : tree.entry? location = none)
    (hfollow : before.follow false maxLinks [] (FilePath.names path) = .ok location)
    (hmissing : before.entry? location = none) (hempty : before.hasEntries location = false) :
    tree.MakesAnew path location (before.insert location .directory) := by
  have hne := ne_nil_of_entry?_ne (ne_directory_of_missing hmissing)
  have hinsert := entry?_insert before hne .directory
  have hstands : entry? (before.insert location .directory) location = some .directory := by
    rw [hinsert, Function.update_self]
  have hempty' : hasEntries (before.insert location .directory) location = false := by
    rw [hasEntries_eq_false_iff] at hempty ⊢
    intro rest hrest
    rw [hinsert, Function.update_of_ne (by simpa using hrest)]
    exact hempty rest hrest
  obtain ⟨links, hle, hleads⟩ := leads_of_follow hfollow (insert_keeps hmissing) hstands
  exact ⟨hlacks, hfresh, opens_of_leads hleads hle hstands hempty', hempty'⟩

/-- What can come of making the directories of a path. -/
inductive Makings (tree : FileTree) (path : String) : Except FileFault Unit × FileTree → Prop
  | kept {links : Nat} {location : Location}
      (hleads : tree.Leads links [] (FilePath.names path) location) (hlinks : links ≤ maxLinks) :
      Makings tree path (.ok (), tree)
  | made {location : Location} {made : FileTree} (hmade : tree.MakesAnew path location made) :
      Makings tree path (.ok (), made)
  | failed {fault : FileFault} {made : FileTree}
      (hmade : made = tree ∨ ∃ name ∈ FilePath.names path, maxNameOctets < name.utf8ByteSize) :
      Makings tree path (.error fault, made)

theorem makeDirectory_of_follow {fault : FileFault}
    (h : tree.follow false maxLinks [] (FilePath.names path) = .error fault) :
    tree.makeDirectory path = .error fault := by
  rw [makeDirectory, FilePath.steps_withoutSlashesAtEnd, h]
  rfl

theorem makeDirectory_of_missing
    (h : tree.follow false maxLinks [] (FilePath.names path) = .ok location)
    (hmissing : tree.entry? location = none) :
    tree.makeDirectory path = .ok (tree.insert location .directory) := by
  rw [makeDirectory, FilePath.steps_withoutSlashesAtEnd, h]
  simp only [bind, Except.bind, hmissing]
  rfl

theorem makeDirectory_of_stands {entry : FileEntry}
    (h : tree.follow false maxLinks [] (FilePath.names path) = .ok location)
    (hstands : tree.entry? location = some entry) : tree.makeDirectory path = .error .exists := by
  rw [makeDirectory, FilePath.steps_withoutSlashesAtEnd, h]
  simp only [bind, Except.bind, hstands]
  rfl

theorem follow_of_makeDirectory_notFound (h : tree.makeDirectory path = .error .notFound) :
    tree.follow false maxLinks [] (FilePath.names path) = .error .notFound := by
  rcases hfollow : tree.follow false maxLinks [] (FilePath.names path) with fault | location
  · rw [makeDirectory_of_follow hfollow] at h
    exact congrArg Except.error (Except.error.inj h)
  · rcases hentry : tree.entry? location with _ | entry
    · rw [makeDirectory_of_missing hfollow hentry] at h
      cases h
    · rw [makeDirectory_of_stands hfollow hentry] at h
      cases h

theorem makings_makeOrKeep (hgrounded : tree.IsGrounded) (path : String) :
    tree.Makings path (tree.makeOrKeep path) := by
  rcases hmake : tree.makeDirectory path with fault | made
  · rw [makeOrKeep, hmake]
    by_cases hdirectory : tree.isDirectory path = true
    · obtain ⟨location, hfind⟩ := isDirectory_iff.mp hdirectory
      obtain ⟨links, hle, hleads⟩ := exists_leads_of_find hfind
      simp only [hdirectory, if_true]
      exact .kept hleads hle
    · simp only [hdirectory]
      exact .failed (.inl rfl)
  · obtain ⟨location, hfollow, hmissing, rfl⟩ := makeDirectory_eq_ok hmake
    have hempty := hgrounded.hasEntries_eq_false (ne_directory_of_missing hmissing)
    rw [makeOrKeep, hmake]
    exact .made (makesAnew_insert (lacks_of_follow hfollow hmissing) hmissing hfollow hmissing hempty)

theorem Leads.follow_names {links : Nat} {dots : List String}
    (h : tree.Leads links [] (FilePath.names parent) location) (hle : links ≤ maxLinks)
    (hnames : FilePath.names path = FilePath.names parent ++ dots ++ [last])
    (hdots : ∀ step ∈ dots, step = ".") (followLast : Bool) :
    ∃ left, tree.follow followLast maxLinks [] (FilePath.names path) =
      tree.follow followLast left location [last] := by
  obtain ⟨left, hleft⟩ := Nat.exists_eq_add_of_le hle
  refine ⟨left, ?_⟩
  rw [hnames, List.append_assoc, hleft, h.follow_append (by simp), follow_dots_append hdots]

theorem Leads.makeDirectory_ne_notFound {links : Nat} {dots : List String}
    (h : tree.Leads links [] (FilePath.names parent) location) (hle : links ≤ maxLinks)
    (hnames : FilePath.names path = FilePath.names parent ++ dots ++ [last])
    (hdots : ∀ step ∈ dots, step = ".") (hdot : last ≠ ".") (hup : last ≠ "..") :
    tree.makeDirectory path ≠ .error .notFound := by
  intro hmake
  have hfails := follow_of_makeDirectory_notFound hmake
  obtain ⟨left, hfollow⟩ := h.follow_names hle hnames hdots false
  rw [hfollow] at hfails
  by_cases hlong : maxNameOctets < last.utf8ByteSize
  · rw [follow_tooLong hdot hup hlong] at hfails
    cases hfails
  · rw [follow_last ⟨hdot, hup, Nat.not_lt.mp hlong⟩ (by simp)] at hfails
    cases hfails

theorem MakesAnew.makings {dots : List String} (h : tree.MakesAnew parent location made)
    (hgrounded : tree.IsGrounded)
    (hnames : FilePath.names path = FilePath.names parent ++ dots ++ [last])
    (hdots : ∀ step ∈ dots, step = ".") (hdot : last ≠ ".") (hup : last ≠ "..") :
    tree.Makings path (made.makeOrKeep path) := by
  obtain ⟨links, hle, hleads⟩ := h.opens.leads_whole
  obtain ⟨left, hfollow⟩ := hleads.follow_names hle hnames hdots false
  by_cases hlong : maxNameOctets < last.utf8ByteSize
  · rw [follow_tooLong hdot hup hlong] at hfollow
    have hnone : made.isDirectory path = false := by
      rw [Bool.eq_false_iff]
      intro hdirectory
      obtain ⟨place, hfind⟩ := isDirectory_iff.mp hdirectory
      obtain ⟨links', hle', hleads'⟩ := exists_leads_of_find hfind
      obtain ⟨left', hleft'⟩ := Nat.exists_eq_add_of_le hle'
      obtain ⟨left'', hfollow'⟩ := hleads.follow_names hle hnames hdots true
      rw [follow_tooLong hdot hup hlong, hleft', hleads'.follow_true] at hfollow'
      cases hfollow'
    rw [makeOrKeep, makeDirectory_of_follow hfollow]
    simp only [hnone, Bool.false_eq_true, if_false]
    refine .failed (.inr ⟨last, ?_, hlong⟩)
    rw [hnames]
    exact List.mem_concat_self
  · have hempty := hasEntries_eq_false_iff.mp h.isEmpty
    have hmissing := hempty [last] (List.cons_ne_nil _ _)
    rw [follow_missing ⟨hdot, hup, Nat.not_lt.mp hlong⟩ hmissing] at hfollow
    rw [makeOrKeep, makeDirectory_of_missing hfollow hmissing]
    refine .made (makesAnew_insert ?_ ?_ hfollow hmissing ?_)
    · intro followLast rest hrest
      rw [hnames, List.append_assoc, List.append_assoc]
      exact h.lacks followLast _ (by simp)
    · exact hgrounded.entry?_append (ne_directory_of_missing h.fresh) (List.cons_ne_nil _ _)
    · rw [hasEntries_eq_false_iff]
      intro rest hrest
      rw [List.append_assoc]
      exact hempty _ (List.append_ne_nil_of_right_ne_nil _ hrest)

/-- A path takes no step up from where nothing is. -/
def HasFooting (tree : FileTree) (path : String) : Prop :=
  ∀ before rest, FilePath.names path = before ++ ".." :: rest →
    ¬tree.IsMissing maxLinks [] before

theorem hasFooting_of_notMem (h : ".." ∉ FilePath.names path) : tree.HasFooting path := by
  intro before rest hnames
  rw [hnames] at h
  exact absurd (List.mem_append_right before List.mem_cons_self) h

theorem hasFooting_of_isDirectory (h : tree.isDirectory path = true) : tree.HasFooting path := by
  intro before rest hnames
  obtain ⟨location, hfind⟩ := isDirectory_iff.mp h
  obtain ⟨links, hle, hleads⟩ := exists_leads_of_find hfind
  obtain ⟨left, hleft⟩ := Nat.exists_eq_add_of_le hle
  have hfollow : tree.follow true maxLinks [] (before ++ ".." :: rest) = .ok location := by
    rw [← hnames, hleft, hleads.follow_true]
  obtain ⟨links', hle', place, hleads'⟩ :=
    exists_leads_of_follow_append hfollow (List.cons_ne_nil _ _)
  obtain ⟨left', hleft'⟩ := Nat.exists_eq_add_of_le hle'
  rw [hleft']
  exact not_isMissing_of_ok hleads'.follow_true hleads'.stands

theorem isMissing_of_follow_up {followLast : Bool} {limit : Nat} {directory : Location}
    {steps : List String}
    (h : tree.follow followLast limit directory (steps ++ [".."]) = .error .notFound) :
    tree.IsMissing limit directory steps := by
  induction limit, directory, steps using tree.steps_induction with
  | nil limit directory =>
      rw [List.nil_append, follow_up, follow_nil] at h
      cases h
  | idle limit directory rest ih =>
      rw [List.cons_append, follow_idle] at h
      rw [IsMissing, follow_idle]
      exact ih h
  | up limit directory rest ih =>
      rw [List.cons_append, follow_up] at h
      rw [IsMissing, follow_up]
      exact ih h
  | tooLong limit directory name rest hdot hdots hlong =>
      rw [List.cons_append, follow_tooLong hdot hdots hlong] at h
      cases h
  | missing limit directory name rest hname hentry =>
      rw [IsMissing, follow_missing hname hentry]
      split
      · exact .inr ⟨_, rfl, hentry⟩
      · exact .inl rfl
  | file limit directory name rest contents isPrivate hname hentry =>
      rw [List.cons_append, follow_file hname hentry, if_neg (by simp)] at h
      cases h
  | enter limit directory name rest hname hentry ih =>
      rw [List.cons_append, follow_enter hname hentry] at h
      rw [IsMissing, follow_enter hname hentry]
      exact ih h
  | lastLink directory name rest target hname hentry =>
      rw [List.cons_append, follow_link_zero hname hentry (by simp)] at h
      cases h
  | link limit directory name rest target hname hentry ih =>
      rw [List.cons_append, follow_link hname hentry (by simp), ← List.append_assoc] at h
      rw [IsMissing, follow_link hname hentry (Bool.and_false _)]
      exact ih h

/-- By induction along the paths above one. Without a step up from where nothing is, its last name is
that of a directory to be made in the one above. -/
theorem makings_makeMissing (hgrounded : tree.IsGrounded) {budget : Nat}
    (hlength : path.length < budget) (hends : FilePath.EndsInStep path)
    (hfooting : tree.HasFooting path) :
    tree.Makings path (tree.makeMissing (FilePath.ancestorsWithin budget path)) := by
  induction budget generalizing path with
  | zero => omega
  | succ budget ih =>
      rw [FilePath.ancestorsWithin_succ]
      by_cases hempty : path = ""
      · subst path
        exact .kept (.here []) (Nat.zero_le _)
      -- The paths above matter only where the last directory cannot be made for want of another.
      by_cases hnotFound : tree.makeDirectory path = .error .notFound
      · obtain hall | ⟨parent, dots, last, hparent, hnames, hdots, hlast, hends⟩ := hends.cases
        · rw [makeDirectory_of_stands (follow_dots hall false maxLinks []) rfl] at hnotFound
          cases hnotFound
        have hup : last ≠ ".." := by
          rintro rfl
          have hfollow := follow_of_makeDirectory_notFound hnotFound
          rw [hnames] at hfollow
          exact hfooting _ [] hnames (isMissing_of_follow_up hfollow)
        have hparent' : tree.HasFooting parent := by
          intro before rest hbefore
          refine hfooting before (rest ++ dots ++ [last]) ?_
          rw [hnames, hbefore]
          simp only [List.append_assoc, List.cons_append]
        have hshorter := FilePath.length_parent?_lt hparent
        have habove : tree.Makings parent
            (tree.makeMissing (FilePath.ancestorsWithin budget parent)) :=
          ih (by omega) hends hparent'
        rw [hparent]
        change tree.Makings path
          (tree.makeMissing (path :: FilePath.ancestorsWithin budget parent))
        generalize hresult : tree.makeMissing (FilePath.ancestorsWithin budget parent) = result
          at habove
        cases habove with
        | kept hleads hlinks =>
            exact absurd hnotFound
              (hleads.makeDirectory_ne_notFound hlinks hnames hdots hlast hup)
        | made hmade =>
            rw [makeMissing_of_makes hempty hnotFound hresult]
            exact hmade.makings hgrounded hnames hdots hlast hup
        | failed hmade =>
            rw [makeMissing_of_error hempty hnotFound hresult]
            refine .failed (hmade.imp_right ?_)
            rintro ⟨name, hmem, hlong⟩
            rw [hnames, List.append_assoc]
            exact ⟨name, List.mem_append_left _ hmem, hlong⟩
      · rw [makeMissing_of_ne hempty hnotFound]
        exact makings_makeOrKeep hgrounded path

theorem makings_makeDirectories (hgrounded : tree.IsGrounded) (hends : FilePath.EndsInStep path)
    (hfooting : tree.HasFooting path) : tree.Makings path (tree.makeDirectories path) :=
  makings_makeMissing hgrounded (Nat.lt_succ_self _) hends hfooting

/-- The directories of a path are there or are made empty, or nothing comes of it. What is there is
not reached through its own entries, which calls may replace. -/
theorem makes_or_fails {directory name : String} (hgrounded : tree.IsGrounded)
    (hname : FilePath.IsPart name) (hpath : path = FilePath.join directory name)
    (hfooting : tree.HasFooting path)
    (hown : ∀ location, tree.find path true = .ok (location, .directory) →
      tree.Opens path location) :
    (∃ location made, tree.Makes path location made ∧
      (made = tree ∨ tree.entry? location = none ∧ made.hasEntries location = false)) ∨
    ∃ fault made, tree.makeDirectories path = (.error fault, made) ∧
      (made = tree ∨ ∃ name ∈ FilePath.names path, maxNameOctets < name.utf8ByteSize) := by
  subst path
  have hmakings :=
    makings_makeDirectories hgrounded (FilePath.endsInStep_join directory hname) hfooting
  generalize hresult : tree.makeDirectories (FilePath.join directory name) = result at hmakings
  cases hmakings with
  | kept hleads hlinks =>
      have hfind := find_of_leads (FilePath.join_ne_empty directory hname) hleads hlinks hleads.stands
      exact .inl ⟨_, tree, (hown _ hfind).makes, .inl rfl⟩
  | made hmade =>
      refine .inl ⟨_, _, ⟨?_, hmade.opens, .inl hmade.lacks⟩, .inr ⟨hmade.fresh, hmade.isEmpty⟩⟩
      rw [FilePath.withoutIdleAtEnd_join directory hname, hresult]
  | failed hmade => exact .inr ⟨_, _, rfl, hmade⟩

theorem IsGrounded.under_eq (h : tree.IsGrounded)
    (hmade : made = tree ∨ tree.entry? location = none ∧ made.hasEntries location = false)
    {rest : Location} (hrest : rest ≠ []) : made.under location rest = tree.under location rest := by
  rcases hmade with rfl | ⟨hfresh, hempty⟩
  · rfl
  · rw [under, under, hasEntries_eq_false_iff.mp hempty rest hrest,
      h.entry?_append (ne_directory_of_missing hfresh) hrest]

theorem makeDirectories_join_of_error {name : String} {fault : FileFault}
    (hname : FilePath.IsPart name) (htrimmed : FilePath.withoutIdleAtEnd path = path)
    (h : tree.makeDirectories path = (.error fault, made)) :
    ∃ fault' made', tree.makeDirectories (FilePath.join path name) = (.error fault', made') ∧
      (made' = made ∨ made' = tree) := by
  have hnone : ∀ followLast found, tree.follow followLast maxLinks []
      (FilePath.names (FilePath.join path name)) ≠ .ok found := by
    intro followLast found hfound
    rw [FilePath.names_join path hname] at hfound
    obtain ⟨links, hle, location, hleads⟩ :=
      exists_leads_of_follow_append hfound (List.cons_ne_nil _ _)
    rw [makeDirectories_of_leads hleads hle hleads.stands] at h
    cases h
  have hpath := FilePath.join_ne_empty path hname
  have hmakes := makeDirectories_join tree path hname
  rw [FilePath.withoutIdleAtEnd_join path hname, htrimmed] at hmakes
  rw [hmakes]
  by_cases hnotFound : tree.makeDirectory (FilePath.join path name) = .error .notFound
  · exact ⟨fault, made, makeMissing_of_error hpath hnotFound h, .inl rfl⟩
  rcases hmake : tree.makeDirectory (FilePath.join path name) with fault' | made'
  · have hdirectory : tree.isDirectory (FilePath.join path name) = false := by
      rw [Bool.eq_false_iff]
      intro hdirectory
      obtain ⟨location, hfind⟩ := isDirectory_iff.mp hdirectory
      obtain ⟨links, hle, hleads⟩ := exists_leads_of_find hfind
      obtain ⟨left, hleft⟩ := Nat.exists_eq_add_of_le hle
      apply hnone true location
      rw [hleft, hleads.follow_true]
    refine ⟨fault', tree, ?_, .inr rfl⟩
    rw [makeMissing_of_ne hpath hnotFound, makeOrKeep, hmake]
    simp only [hdirectory, Bool.false_eq_true, if_false]
  · obtain ⟨location, hfollow, -, -⟩ := makeDirectory_eq_ok hmake
    exact absurd hfollow (hnone false location)

end FileTree

end CertRotation
