import CertRotation.Proofs.Files.Frame

namespace CertRotation

namespace FileTree

variable {tree after : FileTree} {location : Location} {name : String}

/-- Every entry lies in directories. -/
def IsGrounded (tree : FileTree) : Prop :=
  ∀ key, tree.entry? key ≠ none → tree.IsSolid key.dropLast

theorem isGrounded_of_entries
    (h : ∀ e ∈ tree.entries, ∀ n < e.1.length, tree.entry? (e.1.take n) = some .directory) :
    tree.IsGrounded := by
  intro key hkey above habove
  rcases eq_or_ne key [] with rfl | hne
  · rw [List.prefix_nil.mp habove]
    rfl
  rw [entry?_of_ne_nil tree hne, ne_eq, List.lookup_eq_none_iff] at hkey
  simp only [not_forall, bne_iff_ne, ne_eq, not_not] at hkey
  obtain ⟨e, hmem, rfl⟩ := hkey
  have hlength := habove.length_le
  rw [List.length_dropLast] at hlength
  have hpos := List.length_pos_iff.mpr hne
  rw [List.prefix_iff_eq_take.mp (habove.trans (List.dropLast_prefix e.1))]
  exact h e hmem above.length (by omega)

theorem IsGrounded.entry?_append (h : tree.IsGrounded)
    (hentry : tree.entry? location ≠ some .directory) {rest : List String} (hrest : rest ≠ []) :
    tree.entry? (location ++ rest) = none := by
  by_contra hstands
  apply hentry
  refine h _ hstands location ?_
  rw [List.dropLast_append_of_ne_nil hrest]
  exact List.prefix_append _ _

theorem IsGrounded.hasEntries_eq_false (h : tree.IsGrounded)
    (hentry : tree.entry? location ≠ some .directory) : tree.hasEntries location = false :=
  hasEntries_eq_false_iff.mpr fun _ => h.entry?_append hentry

/-- Nothing has a name, and no link mentions it. -/
structure IsUnused (tree : FileTree) (name : String) : Prop where
  entries : ∀ key, name ∈ key → tree.entry? key = none
  targets : ∀ key target, tree.entry? key = some (.link target) → name ∉ FilePath.steps target

/-- The steps that following an entry takes, if it is a link. -/
def targetSteps : FileEntry → List String
  | .link target => FilePath.steps target
  | _ => []

theorem isUnused_of_entries (h : ∀ e ∈ tree.entries, name ∉ e.1 ∧ name ∉ targetSteps e.2) :
    tree.IsUnused name := by
  have hmem : ∀ key entry, key ≠ [] → tree.entry? key = some entry → (key, entry) ∈ tree.entries := by
    intro key entry hne hentry
    rw [entry?_of_ne_nil tree hne, List.lookup_eq_some_iff] at hentry
    obtain ⟨before, rest, heq, -⟩ := hentry
    rw [heq]
    exact List.mem_append_right _ List.mem_cons_self
  constructor
  · intro key hkey
    rcases hentry : tree.entry? key with _ | entry
    · rfl
    · exact absurd hkey (h _ (hmem key entry (List.ne_nil_of_mem hkey) hentry)).1
  · intro key target hentry
    refine (h _ (hmem key _ ?_ hentry)).2
    rintro rfl
    cases hentry

theorem Leads.notMem {links : Nat} {directory : Location} {steps : List String}
    (h : tree.Leads links directory steps location)
    (hunused : ∀ key, name ∈ key → tree.entry? key = none) (hname : FilePath.IsPart name) :
    name ∉ steps := by
  have hother : ∀ {directory : Location} {step : String} {entry : FileEntry},
      tree.entry? (directory ++ [step]) = some entry → name ≠ step := by
    rintro directory _ entry hentry rfl
    rw [hunused _ (List.mem_append_right directory List.mem_cons_self)] at hentry
    cases hentry
  induction h with
  | here directory => exact List.not_mem_nil
  | idle _ ih => simpa using ⟨hname.ne_dot, ih⟩
  | up _ ih => simpa using ⟨hname.ne_dots, ih⟩
  | enter _ hentry _ ih => simpa using ⟨hother hentry, ih⟩
  | link _ hentry _ ih =>
      simp only [List.mem_append, not_or] at ih
      simpa using ⟨hother hentry, ih.2⟩

/-- Two trees agree but for what has a name that one of them does not use. -/
structure AgreesBut (tree : FileTree) (name : String) (after : FileTree) : Prop where
  unused : tree.IsUnused name
  agrees : ∀ key, name ∉ key → after.entry? key = tree.entry? key

/-- Such trees look alike to those who do not know the name. -/
theorem AgreesBut.follow_eq (h : tree.AgreesBut name after)
    {followLast : Bool} {limit : Nat} {directory : Location} {steps : List String}
    (hdirectory : name ∉ directory) (hsteps : name ∉ steps) :
    after.follow followLast limit directory steps = tree.follow followLast limit directory steps ∧
      ∀ found, tree.follow followLast limit directory steps = .ok found → name ∉ found := by
  have hentry : ∀ {directory : Location} {step : String}, name ∉ directory → name ≠ step →
      name ∉ directory ++ [step] ∧
        after.entry? (directory ++ [step]) = tree.entry? (directory ++ [step]) := by
    intro directory step hdirectory hstep
    have hkey : name ∉ directory ++ [step] := by simpa using ⟨hdirectory, hstep⟩
    exact ⟨hkey, h.agrees _ hkey⟩
  induction limit, directory, steps using tree.steps_induction with
  | nil limit directory =>
      rw [follow_nil, follow_nil]
      refine ⟨rfl, ?_⟩
      rintro _ ⟨⟩
      exact hdirectory
  | idle limit directory rest ih =>
      simp only [List.mem_cons, not_or] at hsteps
      rw [follow_idle, follow_idle]
      exact ih hdirectory hsteps.2
  | up limit directory rest ih =>
      simp only [List.mem_cons, not_or] at hsteps
      rw [follow_up, follow_up]
      exact ih (fun hmem => hdirectory (List.dropLast_subset directory hmem)) hsteps.2
  | tooLong limit directory step rest hdot hdots hlong =>
      rw [follow_tooLong hdot hdots hlong, follow_tooLong hdot hdots hlong]
      exact ⟨rfl, fun _ heq => nomatch heq⟩
  | missing limit directory step rest hstep hnone =>
      simp only [List.mem_cons, not_or] at hsteps
      obtain ⟨hkey, heq⟩ := hentry hdirectory hsteps.1
      rw [follow_missing hstep hnone, follow_missing hstep (heq.trans hnone)]
      refine ⟨rfl, ?_⟩
      intro found hfound
      split at hfound
      · cases hfound
        exact hkey
      · cases hfound
  | file limit directory step rest contents isPrivate hstep hfile =>
      simp only [List.mem_cons, not_or] at hsteps
      obtain ⟨hkey, heq⟩ := hentry hdirectory hsteps.1
      rw [follow_file hstep hfile, follow_file hstep (heq.trans hfile)]
      refine ⟨rfl, ?_⟩
      intro found hfound
      split at hfound
      · cases hfound
        exact hkey
      · cases hfound
  | enter limit directory step rest hstep henter ih =>
      simp only [List.mem_cons, not_or] at hsteps
      obtain ⟨hkey, heq⟩ := hentry hdirectory hsteps.1
      rw [follow_enter hstep henter, follow_enter hstep (heq.trans henter)]
      exact ih hkey hsteps.2
  | lastLink directory step rest target hstep hlink =>
      simp only [List.mem_cons, not_or] at hsteps
      obtain ⟨hkey, heq⟩ := hentry hdirectory hsteps.1
      rcases hstop : rest.isEmpty && !followLast with _ | _
      · rw [follow_link_zero hstep hlink hstop, follow_link_zero hstep (heq.trans hlink) hstop]
        exact ⟨rfl, fun _ heq => nomatch heq⟩
      · rw [follow_link_stop hstep hlink hstop, follow_link_stop hstep (heq.trans hlink) hstop]
        refine ⟨rfl, ?_⟩
        rintro _ ⟨⟩
        exact hkey
  | link limit directory step rest target hstep hlink ih =>
      simp only [List.mem_cons, not_or] at hsteps
      obtain ⟨hkey, heq⟩ := hentry hdirectory hsteps.1
      rcases hstop : rest.isEmpty && !followLast with _ | _
      · rw [follow_link hstep hlink hstop, follow_link hstep (heq.trans hlink) hstop]
        apply ih
        · split
          · exact List.not_mem_nil
          · exact hdirectory
        · rw [List.mem_append, not_or]
          exact ⟨h.unused.targets _ _ hlink, hsteps.2⟩
      · rw [follow_link_stop hstep hlink hstop, follow_link_stop hstep (heq.trans hlink) hstop]
        refine ⟨rfl, ?_⟩
        rintro _ ⟨⟩
        exact hkey

theorem AgreesBut.find_eq {path : String} (h : tree.AgreesBut name after)
    (hname : FilePath.IsPart name) (hpath : name ∉ FilePath.names path) (followLast : Bool) :
    after.find path followLast = tree.find path followLast := by
  by_cases hempty : path = ""
  · subst path
    rfl
  have hsteps : name ∉ FilePath.steps path := by
    obtain ⟨dots, hsteps, hdots⟩ := exists_dots path
    rw [hsteps, List.mem_append, not_or]
    exact ⟨hpath, fun hmem => hname.ne_dot (hdots name hmem)⟩
  obtain ⟨hfollow, hfound⟩ := h.follow_eq List.not_mem_nil hsteps
  rw [find, find, locate_eq_of_ne hempty, locate_eq_of_ne hempty, hfollow]
  rcases hlocate : tree.follow followLast maxLinks [] (FilePath.steps path) with fault | found
  · rfl
  · simp only [bind, Except.bind, h.agrees found (hfound found hlocate)]

theorem AgreesBut.readLink_eq {path : String} (h : tree.AgreesBut name after)
    (hname : FilePath.IsPart name) (hpath : name ∉ FilePath.names path) :
    after.readLink path = tree.readLink path := by
  rw [readLink, readLink, h.find_eq hname hpath]

theorem AgreesBut.read_eq {path : String} (h : tree.AgreesBut name after)
    (hname : FilePath.IsPart name) (hpath : name ∉ FilePath.names path) :
    after.read path = tree.read path := by
  rw [read, read, h.find_eq hname hpath]

theorem IsUnused.notMem_names {path target : String} (h : tree.IsUnused name)
    (hlink : tree.readLink path = .ok target) : name ∉ FilePath.names target := by
  obtain ⟨location, hfind⟩ := find_of_readLink hlink
  obtain ⟨dots, hsteps, -⟩ := exists_dots target
  have hunused := h.targets location target (find_eq_ok_iff.mp hfind).2
  rw [hsteps, List.mem_append, not_or] at hunused
  exact hunused.1

end FileTree

end CertRotation
