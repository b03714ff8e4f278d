import CertRotation.Proofs.Files.Path
import CertRotation.Proofs.Files.Tree

namespace CertRotation

namespace FileTree

variable {tree : FileTree}

/-- A step that names an entry, and does not fail by its length alone. -/
def IsEntryStep (name : String) : Prop :=
  name ≠ "." ∧ name ≠ ".." ∧ name.utf8ByteSize ≤ maxNameOctets

instance (name : String) : Decidable (IsEntryStep name) :=
  inferInstanceAs (Decidable (_ ∧ _ ∧ _))

theorem isEntryStep_of_isName {name : String} (h : FilePath.IsName name) : IsEntryStep name :=
  ⟨h.ne_dot, h.ne_dots, h.isShort⟩

theorem walk_cons (tree : FileTree) (followLast : Bool) (directory : Location) {name : String}
    (rest : List String) (h : IsEntryStep name) :
    tree.walk followLast directory (name :: rest) =
      match tree.entry? (directory ++ [name]) with
      | some .directory => tree.walk followLast (directory ++ [name]) rest
      | some (.link target) =>
        if rest.isEmpty && !followLast then .reached (directory ++ [name])
        else .atLink directory target rest
      | some (.file ..) =>
        if rest.isEmpty then .reached (directory ++ [name]) else .failed .notDirectory
      | none => if rest.isEmpty then .reached (directory ++ [name]) else .failed .notFound := by
  obtain ⟨hdot, hdots, hshort⟩ := h
  exact (walk.eq_4 tree followLast directory name rest hdot hdots).trans
    (if_neg (Nat.not_lt.mpr hshort))

theorem follow_eq (tree : FileTree) (followLast : Bool) (links : Nat) (directory : Location)
    (steps : List String) :
    tree.follow followLast links directory steps =
      match tree.walk followLast directory steps with
      | .reached location => .ok location
      | .failed fault => .error fault
      | .atLink directory target rest =>
        match links with
        | 0 => .error .tooManyLinks
        | links + 1 =>
          tree.follow followLast links (if target.startsWith "/" then [] else directory)
            (FilePath.steps target ++ rest) :=
  follow.eq_def ..

theorem follow_congr {followLast : Bool} {links : Nat} {directory directory' : Location}
    {steps steps' : List String}
    (h : tree.walk followLast directory steps = tree.walk followLast directory' steps') :
    tree.follow followLast links directory steps =
      tree.follow followLast links directory' steps' := by
  rw [follow_eq, follow_eq _ _ _ directory', h]

theorem follow_nil (followLast : Bool) (links : Nat) (directory : Location) :
    tree.follow followLast links directory [] = .ok directory := by
  rw [follow_eq]
  rfl

theorem follow_idle (followLast : Bool) (links : Nat) (directory : Location)
    (rest : List String) :
    tree.follow followLast links directory ("." :: rest) =
      tree.follow followLast links directory rest := follow_congr rfl

theorem follow_up (followLast : Bool) (links : Nat) (directory : Location)
    (rest : List String) :
    tree.follow followLast links directory (".." :: rest) =
      tree.follow followLast links directory.dropLast rest := follow_congr rfl

theorem follow_enter {followLast : Bool} {links : Nat} {directory : Location} {name : String}
    {rest : List String} (h : IsEntryStep name)
    (hentry : tree.entry? (directory ++ [name]) = some .directory) :
    tree.follow followLast links directory (name :: rest) =
      tree.follow followLast links (directory ++ [name]) rest := by
  apply follow_congr
  rw [walk_cons tree followLast directory rest h, hentry]

theorem follow_link {followLast : Bool} {links : Nat} {directory : Location} {name target : String}
    {rest : List String} (h : IsEntryStep name)
    (hentry : tree.entry? (directory ++ [name]) = some (.link target))
    (hrest : (rest.isEmpty && !followLast) = false) :
    tree.follow followLast (links + 1) directory (name :: rest) =
      tree.follow followLast links (if target.startsWith "/" then [] else directory)
        (FilePath.steps target ++ rest) := by
  rw [follow_eq, walk_cons tree followLast directory rest h, hentry]
  simp only [hrest, Bool.false_eq_true, if_false]

theorem follow_link_zero {followLast : Bool} {directory : Location} {name target : String}
    {rest : List String} (h : IsEntryStep name)
    (hentry : tree.entry? (directory ++ [name]) = some (.link target))
    (hrest : (rest.isEmpty && !followLast) = false) :
    tree.follow followLast 0 directory (name :: rest) = .error .tooManyLinks := by
  rw [follow_eq, walk_cons tree followLast directory rest h, hentry]
  simp only [hrest, Bool.false_eq_true, if_false]

theorem follow_link_stop {followLast : Bool} {links : Nat} {directory : Location}
    {name target : String} {rest : List String} (h : IsEntryStep name)
    (hentry : tree.entry? (directory ++ [name]) = some (.link target))
    (hrest : (rest.isEmpty && !followLast) = true) :
    tree.follow followLast links directory (name :: rest) = .ok (directory ++ [name]) := by
  rw [follow_eq, walk_cons tree followLast directory rest h, hentry]
  simp only [hrest, if_true]

theorem follow_file {followLast : Bool} {links : Nat} {directory : Location} {name : String}
    {rest : List String} {contents : Octets} {isPrivate : Bool} (h : IsEntryStep name)
    (hentry : tree.entry? (directory ++ [name]) = some (.file contents isPrivate)) :
    tree.follow followLast links directory (name :: rest) =
      if rest.isEmpty then .ok (directory ++ [name]) else .error .notDirectory := by
  rw [follow_eq, walk_cons tree followLast directory rest h, hentry]
  rcases rest with _ | ⟨step, rest⟩
  · rfl
  · rfl

theorem follow_missing {followLast : Bool} {links : Nat} {directory : Location} {name : String}
    {rest : List String} (h : IsEntryStep name)
    (hentry : tree.entry? (directory ++ [name]) = none) :
    tree.follow followLast links directory (name :: rest) =
      if rest.isEmpty then .ok (directory ++ [name]) else .error .notFound := by
  rw [follow_eq, walk_cons tree followLast directory rest h, hentry]
  rcases rest with _ | ⟨step, rest⟩
  · rfl
  · rfl

theorem follow_last {followLast : Bool} {links : Nat} {directory : Location} {name : String}
    (h : IsEntryStep name)
    (hlink : followLast = true → ∀ target, tree.entry? (directory ++ [name]) ≠ some (.link target)) :
    tree.follow followLast links directory [name] = .ok (directory ++ [name]) := by
  rw [follow_eq, walk_cons tree followLast directory [] h]
  rcases hentry : tree.entry? (directory ++ [name]) with _ | _ | _ | target
  · rfl
  · rfl
  · rfl
  · rcases followLast with _ | _
    · rfl
    · exact absurd hentry (hlink rfl target)

theorem follow_tooLong {followLast : Bool} {links : Nat} {directory : Location} {name : String}
    {rest : List String} (hdot : name ≠ ".") (hdots : name ≠ "..")
    (h : maxNameOctets < name.utf8ByteSize) :
    tree.follow followLast links directory (name :: rest) = .error .nameTooLong := by
  rw [follow_eq, walk.eq_4 _ _ _ _ _ hdot hdots, if_pos h]

/-- Induction along the steps of a path, by what stands at the next one. Going on at a link takes one
of the links that may still be followed. -/
theorem steps_induction {motive : Nat → Location → List String → Prop}
    (nil : ∀ limit directory, motive limit directory [])
    (idle : ∀ limit directory rest, motive limit directory rest →
      motive limit directory ("." :: rest))
    (up : ∀ limit directory rest, motive limit directory.dropLast rest →
      motive limit directory (".." :: rest))
    (tooLong : ∀ limit directory name rest, name ≠ "." → name ≠ ".." →
      maxNameOctets < name.utf8ByteSize → motive limit directory (name :: rest))
    (missing : ∀ limit directory name rest, IsEntryStep name →
      tree.entry? (directory ++ [name]) = none → motive limit directory (name :: rest))
    (file : ∀ limit directory name rest contents isPrivate, IsEntryStep name →
      tree.entry? (directory ++ [name]) = some (.file contents isPrivate) →
      motive limit directory (name :: rest))
    (enter : ∀ limit directory name rest, IsEntryStep name →
      tree.entry? (directory ++ [name]) = some .directory →
      motive limit (directory ++ [name]) rest → motive limit directory (name :: rest))
    (lastLink : ∀ directory name rest target, IsEntryStep name →
      tree.entry? (directory ++ [name]) = some (.link target) → motive 0 directory (name :: rest))
    (link : ∀ limit directory name rest target, IsEntryStep name →
      tree.entry? (directory ++ [name]) = some (.link target) →
      motive limit (if target.startsWith "/" then [] else directory)
        (FilePath.steps target ++ rest) →
      motive (limit + 1) directory (name :: rest))
    (limit : Nat) (directory : Location) (steps : List String) : motive limit directory steps := by
  induction limit using Nat.strongRecOn generalizing directory steps with
  | _ limit ihlimit =>
      induction steps generalizing directory with
      | nil => exact nil limit directory
      | cons name rest ih =>
          by_cases hdot : name = "."
          · subst name
            exact idle limit directory rest (ih directory)
          by_cases hdots : name = ".."
          · subst name
            exact up limit directory rest (ih directory.dropLast)
          by_cases hshort : maxNameOctets < name.utf8ByteSize
          · exact tooLong limit directory name rest hdot hdots hshort
          have hname : IsEntryStep name := ⟨hdot, hdots, Nat.not_lt.mp hshort⟩
          rcases hentry : tree.entry? (directory ++ [name]) with
            _ | _ | ⟨contents, isPrivate⟩ | target
          · exact missing limit directory name rest hname hentry
          · exact enter limit directory name rest hname hentry (ih _)
          · exact file limit directory name rest contents isPrivate hname hentry
          · rcases limit with _ | limit
            · exact lastLink directory name rest target hname hentry
            · exact link limit directory name rest target hname hentry
                (ihlimit limit (Nat.lt_succ_self limit) _ _)

/-- Steps from a directory lead through a number of links to a location, and every entry on the way
is a directory or a link. -/
inductive Leads (tree : FileTree) : Nat → Location → List String → Location → Prop
  | here (directory : Location) : Leads tree 0 directory [] directory
  | idle {links : Nat} {directory location : Location} {rest : List String}
      (hrest : Leads tree links directory rest location) :
      Leads tree links directory ("." :: rest) location
  | up {links : Nat} {directory location : Location} {rest : List String}
      (hrest : Leads tree links directory.dropLast rest location) :
      Leads tree links directory (".." :: rest) location
  | enter {links : Nat} {directory location : Location} {name : String} {rest : List String}
      (hname : IsEntryStep name)
      (hentry : tree.entry? (directory ++ [name]) = some .directory)
      (hrest : Leads tree links (directory ++ [name]) rest location) :
      Leads tree links directory (name :: rest) location
  | link {links : Nat} {directory location : Location} {name target : String}
      {rest : List String} (hname : IsEntryStep name)
      (hentry : tree.entry? (directory ++ [name]) = some (.link target))
      (hrest : Leads tree links (if target.startsWith "/" then [] else directory)
        (FilePath.steps target ++ rest) location) :
      Leads tree (links + 1) directory (name :: rest) location

theorem Leads.mono {tree' : FileTree} {links : Nat} {directory location : Location}
    {steps : List String} (h : tree.Leads links directory steps location)
    (hkeep : ∀ {key entry}, tree.entry? key = some entry →
      (∀ contents isPrivate, entry ≠ .file contents isPrivate) → tree'.entry? key = some entry) :
    tree'.Leads links directory steps location := by
  induction h with
  | here directory => exact .here directory
  | idle _ ih => exact .idle ih
  | up _ ih => exact .up ih
  | enter hname hentry _ ih => exact .enter hname (hkeep hentry fun _ _ heq => nomatch heq) ih
  | link hname hentry _ ih => exact .link hname (hkeep hentry fun _ _ heq => nomatch heq) ih

theorem Leads.enter_last {links : Nat} {directory location : Location} {steps : List String}
    {name : String} (h : tree.Leads links directory steps location) (hname : IsEntryStep name)
    (hentry : tree.entry? (location ++ [name]) = some .directory) :
    tree.Leads links directory (steps ++ [name]) (location ++ [name]) := by
  induction h with
  | here directory => exact .enter hname hentry (.here _)
  | idle _ ih => exact .idle (ih hentry)
  | up _ ih => exact .up (ih hentry)
  | enter hname' hentry' _ ih => exact .enter hname' hentry' (ih hentry)
  | link hname' hentry' _ ih =>
      have hlast := ih hentry
      rw [List.append_assoc] at hlast
      exact .link hname' hentry' hlast

theorem Leads.of_append_idle {links : Nat} {directory location : Location}
    {steps dots : List String} (h : tree.Leads links directory (steps ++ dots) location)
    (hdots : ∀ step ∈ dots, step = ".") : tree.Leads links directory steps location := by
  generalize hall : steps ++ dots = all at h
  induction h generalizing steps dots with
  | here directory =>
      obtain ⟨rfl, -⟩ := List.append_eq_nil_iff.mp hall
      exact .here directory
  | idle hrest ih =>
      rcases steps with _ | ⟨step, steps⟩
      · rw [List.nil_append] at hall
        subst hall
        exact ih (fun step hmem => hdots step (List.mem_cons_of_mem _ hmem)) rfl
      · obtain ⟨rfl, htail⟩ := List.cons.inj hall
        exact .idle (ih hdots htail)
  | up hrest ih =>
      rcases steps with _ | ⟨step, steps⟩
      · rw [List.nil_append] at hall
        subst hall
        exact absurd (hdots ".." List.mem_cons_self) (by decide)
      · obtain ⟨rfl, htail⟩ := List.cons.inj hall
        exact .up (ih hdots htail)
  | enter hname hentry hrest ih =>
      rcases steps with _ | ⟨step, steps⟩
      · rw [List.nil_append] at hall
        subst hall
        exact absurd (hdots _ List.mem_cons_self) hname.1
      · obtain ⟨rfl, htail⟩ := List.cons.inj hall
        exact .enter hname hentry (ih hdots htail)
  | link hname hentry hrest ih =>
      rcases steps with _ | ⟨step, steps⟩
      · rw [List.nil_append] at hall
        subst hall
        exact absurd (hdots _ List.mem_cons_self) hname.1
      · obtain ⟨rfl, htail⟩ := List.cons.inj hall
        apply Leads.link hname hentry
        apply ih hdots
        rw [List.append_assoc, ← htail]
        rfl

theorem Leads.follow_append {links left : Nat} {directory location : Location}
    {steps rest : List String} (h : tree.Leads links directory steps location)
    (hrest : rest ≠ []) (followLast : Bool) :
    tree.follow followLast (links + left) directory (steps ++ rest) =
      tree.follow followLast left location rest := by
  induction h with
  | here directory => rw [Nat.zero_add, List.nil_append]
  | idle _ ih =>
      rw [← ih]
      exact follow_idle followLast _ _ _
  | up _ ih =>
      rw [← ih]
      exact follow_up followLast _ _ _
  | enter hname hentry _ ih =>
      rw [← ih]
      exact follow_enter hname hentry
  | @link links directory location name target steps hname hentry _ ih =>
      have hmore : ((steps ++ rest).isEmpty && !followLast) = false := by
        simp [hrest]
      rw [← ih, Nat.add_right_comm, List.cons_append, follow_link hname hentry hmore,
        List.append_assoc]

theorem Leads.follow_true {links left : Nat} {directory location : Location}
    {steps : List String} (h : tree.Leads links directory steps location) :
    tree.follow true (links + left) directory steps = .ok location := by
  induction h with
  | here directory => exact follow_nil true _ directory
  | idle _ ih => rw [follow_idle, ih]
  | up _ ih => rw [follow_up, ih]
  | enter hname hentry _ ih => rw [follow_enter hname hentry, ih]
  | link hname hentry _ ih =>
      rw [Nat.add_right_comm, follow_link hname hentry (Bool.and_false _), ih]

theorem Leads.location_eq {links links' : Nat} {directory location location' : Location}
    {steps : List String} (h : tree.Leads links directory steps location)
    (h' : tree.Leads links' directory steps location') : location = location' := by
  have hfollow : tree.follow true (links + links') directory steps = .ok location := h.follow_true
  rw [Nat.add_comm, h'.follow_true] at hfollow
  exact (Except.ok.inj hfollow).symm

theorem Leads.exists_follow {links : Nat} {directory location : Location}
    {steps : List String} (h : tree.Leads links directory steps location)
    (hlocation : tree.entry? location = some .directory) (followLast : Bool) (left : Nat) :
    ∃ found entry, tree.follow followLast (links + left) directory steps = .ok found ∧
      tree.entry? found = some entry := by
  induction h with
  | here directory => exact ⟨directory, .directory, follow_nil followLast _ directory, hlocation⟩
  | idle _ ih =>
      rw [follow_idle]
      exact ih hlocation
  | up _ ih =>
      rw [follow_up]
      exact ih hlocation
  | enter hname hentry _ ih =>
      rw [follow_enter hname hentry]
      exact ih hlocation
  | @link links directory location name target rest hname hentry _ ih =>
      rcases hstop : rest.isEmpty && !followLast with _ | _
      · rw [Nat.add_right_comm, follow_link hname hentry hstop]
        exact ih hlocation
      · exact ⟨_, .link target, follow_link_stop hname hentry hstop, hentry⟩

/-- Steps that are followed to where a directory stands, be it one that has been made since, lead
there. -/
theorem leads_of_follow {made : FileTree} {followLast : Bool} {limit : Nat}
    {directory location : Location} {steps : List String}
    (h : tree.follow followLast limit directory steps = .ok location)
    (hkeep : ∀ {key entry}, tree.entry? key = some entry → made.entry? key = some entry)
    (hstands : made.entry? location = some .directory) :
    ∃ links ≤ limit, made.Leads links directory steps location := by
  induction limit, directory, steps using tree.steps_induction with
  | nil limit directory =>
      rw [follow_nil] at h
      cases h
      exact ⟨0, Nat.zero_le limit, .here location⟩
  | idle limit directory rest ih =>
      rw [follow_idle] at h
      obtain ⟨links, hle, hrest⟩ := ih h
      exact ⟨links, hle, .idle hrest⟩
  | up limit directory rest ih =>
      rw [follow_up] at h
      obtain ⟨links, hle, hrest⟩ := ih h
      exact ⟨links, hle, .up hrest⟩
  | tooLong limit directory name rest hdot hdots hlong =>
      rw [follow_tooLong hdot hdots hlong] at h
      cases h
  | missing limit directory name rest hname hentry =>
      rw [follow_missing hname hentry] at h
      split at h
      · rename_i hlast
        cases h
        obtain rfl := List.isEmpty_iff.mp hlast
        exact ⟨0, Nat.zero_le limit, .enter hname hstands (.here _)⟩
      · cases h
  | file limit directory name rest contents isPrivate hname hentry =>
      rw [follow_file hname hentry] at h
      split at h
      · cases h
        rw [hkeep hentry] at hstands
        cases hstands
      · cases h
  | enter limit directory name rest hname hentry ih =>
      rw [follow_enter hname hentry] at h
      obtain ⟨links, hle, hrest⟩ := ih h
      exact ⟨links, hle, .enter hname (hkeep hentry) hrest⟩
  | lastLink directory name rest target hname hentry =>
      rcases hstop : rest.isEmpty && !followLast with _ | _
      · rw [follow_link_zero hname hentry hstop] at h
        cases h
      · rw [follow_link_stop hname hentry hstop] at h
        cases h
        rw [hkeep hentry] at hstands
        cases hstands
  | link limit directory name rest target hname hentry ih =>
      rcases hstop : rest.isEmpty && !followLast with _ | _
      · rw [follow_link hname hentry hstop] at h
        obtain ⟨links, hle, hrest⟩ := ih h
        exact ⟨links + 1, Nat.succ_le_succ hle, .link hname (hkeep hentry) hrest⟩
      · rw [follow_link_stop hname hentry hstop] at h
        cases h
        rw [hkeep hentry] at hstands
        cases hstands

theorem exists_leads_of_follow_append {followLast : Bool} {limit : Nat}
    {directory found : Location} {steps rest : List String}
    (h : tree.follow followLast limit directory (steps ++ rest) = .ok found) (hrest : rest ≠ []) :
    ∃ links ≤ limit, ∃ location, tree.Leads links directory steps location := by
  induction limit, directory, steps using tree.steps_induction with
  | nil limit directory => exact ⟨0, Nat.zero_le limit, directory, .here directory⟩
  | idle limit directory steps ih =>
      rw [List.cons_append, follow_idle] at h
      obtain ⟨links, hle, location, hleads⟩ := ih h
      exact ⟨links, hle, location, .idle hleads⟩
  | up limit directory steps ih =>
      rw [List.cons_append, follow_up] at h
      obtain ⟨links, hle, location, hleads⟩ := ih h
      exact ⟨links, hle, location, .up hleads⟩
  | tooLong limit directory name steps hdot hdots hlong =>
      rw [List.cons_append, follow_tooLong hdot hdots hlong] at h
      cases h
  | missing limit directory name steps hname hentry =>
      rw [List.cons_append, follow_missing hname hentry, if_neg (by simp [hrest])] at h
      cases h
  | file limit directory name steps contents isPrivate hname hentry =>
      rw [List.cons_append, follow_file hname hentry, if_neg (by simp [hrest])] at h
      cases h
  | enter limit directory name steps hname hentry ih =>
      rw [List.cons_append, follow_enter hname hentry] at h
      obtain ⟨links, hle, location, hleads⟩ := ih h
      exact ⟨links, hle, location, .enter hname hentry hleads⟩
  | lastLink directory name steps target hname hentry =>
      rw [List.cons_append, follow_link_zero hname hentry (by simp [hrest])] at h
      cases h
  | link limit directory name steps target hname hentry ih =>
      rw [List.cons_append, follow_link hname hentry (by simp [hrest]), ← List.append_assoc] at h
      obtain ⟨links, hle, location, hleads⟩ := ih h
      exact ⟨links + 1, Nat.succ_le_succ hle, location, .link hname hentry hleads⟩

theorem follow_true_of_missing {limit : Nat} {directory location : Location} {steps : List String}
    (h : tree.follow false limit directory steps = .ok location)
    (hmissing : tree.entry? location = none) :
    tree.follow true limit directory steps = .ok location := by
  induction limit, directory, steps using tree.steps_induction with
  | nil limit directory =>
      rw [follow_nil] at h ⊢
      exact h
  | idle limit directory rest ih =>
      rw [follow_idle] at h ⊢
      exact ih h
  | up limit directory rest ih =>
      rw [follow_up] at h ⊢
      exact ih h
  | tooLong limit directory name rest hdot hdots hlong =>
      rw [follow_tooLong hdot hdots hlong] at h ⊢
      exact h
  | missing limit directory name rest hname hentry =>
      rw [follow_missing hname hentry] at h ⊢
      exact h
  | file limit directory name rest contents isPrivate hname hentry =>
      rw [follow_file hname hentry] at h ⊢
      exact h
  | enter limit directory name rest hname hentry ih =>
      rw [follow_enter hname hentry] at h ⊢
      exact ih h
  | lastLink directory name rest target hname hentry =>
      rcases hstop : rest.isEmpty && !false with _ | _
      · rw [follow_link_zero hname hentry hstop] at h
        cases h
      · rw [follow_link_stop hname hentry hstop] at h
        cases h
        rw [hentry] at hmissing
        cases hmissing
  | link limit directory name rest target hname hentry ih =>
      rcases hstop : rest.isEmpty && !false with _ | _
      · rw [follow_link hname hentry hstop] at h
        rw [follow_link hname hentry (Bool.and_false _)]
        exact ih h
      · rw [follow_link_stop hname hentry hstop] at h
        cases h
        rw [hentry] at hmissing
        cases hmissing

/-- Following the steps ends where nothing stands. -/
def IsMissing (tree : FileTree) (limit : Nat) (directory : Location) (steps : List String) : Prop :=
  tree.follow true limit directory steps = .error .notFound ∨
    ∃ location, tree.follow true limit directory steps = .ok location ∧
      tree.entry? location = none

theorem not_isMissing_of_error {limit : Nat} {directory : Location} {steps : List String}
    {fault : FileFault} (h : tree.follow true limit directory steps = .error fault)
    (hfault : fault ≠ .notFound) : ¬tree.IsMissing limit directory steps := by
  rintro (hmissing | ⟨location, hmissing, -⟩)
  · rw [h] at hmissing
    exact hfault (Except.error.inj hmissing)
  · rw [h] at hmissing
    cases hmissing

theorem not_isMissing_of_ok {limit : Nat} {directory location : Location} {steps : List String}
    {entry : FileEntry} (h : tree.follow true limit directory steps = .ok location)
    (hentry : tree.entry? location = some entry) : ¬tree.IsMissing limit directory steps := by
  rintro (hmissing | ⟨other, hmissing, hnone⟩)
  · rw [h] at hmissing
    cases hmissing
  · rw [h] at hmissing
    cases hmissing
    rw [hentry] at hnone
    cases hnone

theorem follow_dots_append {dots : List String} (h : ∀ step ∈ dots, step = ".")
    (followLast : Bool) (limit : Nat) (directory : Location) (rest : List String) :
    tree.follow followLast limit directory (dots ++ rest) =
      tree.follow followLast limit directory rest := by
  induction dots with
  | nil => rfl
  | cons step dots ih =>
      rw [h step List.mem_cons_self, List.cons_append, follow_idle]
      exact ih fun step hmem => h step (List.mem_cons_of_mem _ hmem)

theorem follow_dots {dots : List String} (h : ∀ step ∈ dots, step = ".") (followLast : Bool)
    (limit : Nat) (directory : Location) :
    tree.follow followLast limit directory dots = .ok directory := by
  have hstay := tree.follow_dots_append h followLast limit directory []
  rw [List.append_nil, follow_nil] at hstay
  exact hstay

/-- Nothing is found behind a place where nothing stands. The directory from which the steps start
lies in directories, so that a step up does not lead to such a place. -/
theorem follow_append_of_isMissing {limit : Nat} {directory : Location}
    {steps dots rest : List String} (h : tree.IsMissing limit directory (steps ++ dots))
    (hdirectory : ∀ above, above <+: directory → tree.entry? above = some .directory)
    (hdots : ∀ step ∈ dots, step = ".") (hrest : rest ≠ []) (followLast : Bool) :
    tree.follow followLast limit directory (steps ++ rest) = .error .notFound := by
  induction limit, directory, steps using tree.steps_induction with
  | nil limit directory =>
      have hstay : tree.follow true limit directory dots = .ok directory :=
        follow_dots hdots true limit directory
      exact absurd h (not_isMissing_of_ok hstay (hdirectory directory List.prefix_rfl))
  | idle limit directory steps ih =>
      rw [List.cons_append, IsMissing, follow_idle] at h
      rw [List.cons_append, follow_idle]
      exact ih h hdirectory
  | up limit directory steps ih =>
      rw [List.cons_append, IsMissing, follow_up] at h
      rw [List.cons_append, follow_up]
      apply ih h
      intro above habove
      have hup := List.dropLast_prefix directory
      exact hdirectory above (habove.trans hup)
  | tooLong limit directory name steps hdot hdots' hlong =>
      have hfails : tree.follow true limit directory (name :: (steps ++ dots)) = _ :=
        follow_tooLong hdot hdots' hlong
      exact absurd h (not_isMissing_of_error hfails (by decide))
  | missing limit directory name steps hname hentry =>
      rw [List.cons_append, follow_missing hname hentry, if_neg]
      simp [hrest]
  | file limit directory name steps contents isPrivate hname hentry =>
      have hends : tree.follow true limit directory (name :: (steps ++ dots)) = _ :=
        follow_file hname hentry
      split at hends
      · exact absurd h (not_isMissing_of_ok hends hentry)
      · exact absurd h (not_isMissing_of_error hends (by decide))
  | enter limit directory name steps hname hentry ih =>
      rw [List.cons_append, IsMissing, follow_enter hname hentry] at h
      rw [List.cons_append, follow_enter hname hentry]
      apply ih h
      intro above habove
      rcases List.prefix_concat_iff.mp habove with rfl | habove
      · exact hentry
      · exact hdirectory above habove
  | lastLink directory name steps target hname hentry =>
      have hfails : tree.follow true 0 directory (name :: (steps ++ dots)) = _ :=
        follow_link_zero hname hentry (Bool.and_false _)
      exact absurd h (not_isMissing_of_error hfails (by decide))
  | link limit directory name steps target hname hentry ih =>
      have hmore : ((steps ++ rest).isEmpty && !followLast) = false := by
        simp [hrest]
      rw [List.cons_append, IsMissing, follow_link hname hentry (Bool.and_false _),
        ← List.append_assoc] at h
      rw [List.cons_append, follow_link hname hentry hmore, ← List.append_assoc]
      apply ih h
      intro above habove
      split at habove
      · rw [List.prefix_nil.mp habove]
        rfl
      · exact hdirectory above habove

/-- A path leads to a directory, whatever the directory contains. -/
structure Opens (tree : FileTree) (path : String) (location : Location) : Prop where
  stands : tree.entry? location = some .directory
  leads : ∃ links ≤ maxLinks,
    (tree.clear location).Leads links [] (FilePath.names path) location

/-- A path leads nowhere, and so do all paths that go on from there. -/
def Lacks (tree : FileTree) (path : String) : Prop :=
  ∀ (followLast : Bool) (rest : List String), rest ≠ [] →
    tree.follow followLast maxLinks [] (FilePath.names path ++ rest) = .error .notFound

theorem Opens.congr {tree' : FileTree} {path : String} {location : Location}
    (h : tree.Opens path location)
    (hkeep : ∀ key, isBelow key location = false → tree'.entry? key = tree.entry? key) :
    tree'.Opens path location := by
  obtain ⟨links, hle, hleads⟩ := h.leads
  refine ⟨?_, links, hle, hleads.mono ?_⟩
  · rw [hkeep location (not_isBelow_self location)]
    exact h.stands
  · intro key entry hentry _
    obtain ⟨hbelow, hentry⟩ := entry?_clear_eq_some_iff.mp hentry
    rw [← hkeep key hbelow] at hentry
    exact entry?_clear_eq_some_iff.mpr ⟨hbelow, hentry⟩

theorem Opens.of_changes {changed : FileTree} {path : String} {location : Location}
    {entries : Location → Option FileEntry} (h : tree.Opens path location)
    (hchanges : tree.Changes location entries changed) : changed.Opens path location :=
  h.congr hchanges.outside

theorem Opens.leads_whole {path : String} {location : Location} (h : tree.Opens path location) :
    ∃ links ≤ maxLinks, tree.Leads links [] (FilePath.names path) location := by
  obtain ⟨links, hle, hleads⟩ := h.leads
  refine ⟨links, hle, hleads.mono ?_⟩
  intro key entry hentry _
  exact (entry?_clear_eq_some_iff.mp hentry).2

theorem locate_eq_of_ne {path : String} (h : path ≠ "") (followLast : Bool) :
    tree.locate path followLast =
      tree.follow followLast maxLinks [] (FilePath.steps path) := by
  rw [locate, if_neg h]

theorem exists_dots (path : String) :
    ∃ dots, FilePath.steps path = FilePath.names path ++ dots ∧ ∀ step ∈ dots, step = "." := by
  rcases FilePath.steps_eq_or path with h | h
  · exact ⟨[], by rw [h, List.append_nil], by simp⟩
  · exact ⟨["."], h, by simp⟩

theorem exists_leads_of_find {path : String} {location : Location}
    (h : tree.find path true = .ok (location, .directory)) :
    ∃ links ≤ maxLinks, tree.Leads links [] (FilePath.names path) location := by
  obtain ⟨hlocate, hentry⟩ := find_eq_ok_iff.mp h
  have hpath : path ≠ "" := by
    rintro rfl
    cases hlocate
  obtain ⟨dots, hsteps, hdots⟩ := exists_dots path
  rw [locate_eq_of_ne hpath, hsteps] at hlocate
  obtain ⟨links, hle, hleads⟩ := leads_of_follow hlocate id hentry
  exact ⟨links, hle, hleads.of_append_idle hdots⟩

theorem find_of_leads {path : String} {links : Nat} {location : Location} (hpath : path ≠ "")
    (h : tree.Leads links [] (FilePath.names path) location) (hle : links ≤ maxLinks)
    (hentry : tree.entry? location = some .directory) :
    tree.find path true = .ok (location, .directory) := by
  obtain ⟨left, hleft⟩ := Nat.exists_eq_add_of_le hle
  refine find_eq_ok_iff.mpr ⟨?_, hentry⟩
  rw [locate_eq_of_ne hpath, hleft]
  rcases FilePath.steps_eq_or path with hsteps | hsteps
  · rw [hsteps, h.follow_true]
  · rw [hsteps, h.follow_append (List.cons_ne_nil _ _), follow_idle, follow_nil]

theorem opens_of_leads {path : String} {links : Nat} {location : Location}
    (h : tree.Leads links [] (FilePath.names path) location) (hle : links ≤ maxLinks)
    (hstands : tree.entry? location = some .directory)
    (hempty : tree.hasEntries location = false) : tree.Opens path location := by
  refine ⟨hstands, links, hle, h.mono ?_⟩
  intro key entry hkey _
  refine entry?_clear_eq_some_iff.mpr ⟨?_, hkey⟩
  rw [Bool.eq_false_iff]
  intro hbelow
  obtain ⟨rest, hrest, rfl⟩ := isBelow_iff.mp hbelow
  rw [hasEntries_eq_false_iff.mp hempty rest hrest] at hkey
  cases hkey

theorem lacks_of_find {path : String} (h : tree.find path true = .error .notFound)
    (hpath : path ≠ "") : tree.Lacks path := by
  intro followLast rest hrest
  obtain ⟨dots, hsteps, hdots⟩ := exists_dots path
  have hmissing : tree.IsMissing maxLinks [] (FilePath.names path ++ dots) := by
    rw [← hsteps, IsMissing, ← locate_eq_of_ne hpath]
    exact find_eq_notFound_iff.mp h
  refine follow_append_of_isMissing hmissing ?_ hdots hrest followLast
  intro above habove
  rw [List.prefix_nil.mp habove]
  rfl

section join

variable {directory name : String} {location : Location} {followLast : Bool}

theorem locate_join (tree : FileTree) (directory : String) (hname : FilePath.IsPart name)
    (followLast : Bool) :
    tree.locate (FilePath.join directory name) followLast =
      tree.follow followLast maxLinks [] (FilePath.names directory ++ [name]) := by
  rw [locate_eq_of_ne (FilePath.join_ne_empty directory hname),
    FilePath.steps_join directory hname]

theorem Lacks.join (h : tree.Lacks directory) (hname : FilePath.IsName name) :
    tree.Lacks (FilePath.join directory name) := by
  intro followLast rest hrest
  rw [FilePath.names_join directory hname.isPart, List.append_assoc]
  exact h followLast _ (List.append_ne_nil_of_right_ne_nil _ hrest)

theorem Lacks.locate_join (h : tree.Lacks directory) (hname : FilePath.IsName name)
    (followLast : Bool) :
    tree.locate (FilePath.join directory name) followLast = .error .notFound := by
  rw [FileTree.locate_join tree directory hname.isPart]
  exact h followLast [name] (List.cons_ne_nil _ _)

theorem Opens.follow_append (h : tree.Opens directory location) {rest : List String}
    (hrest : rest ≠ []) (followLast : Bool) :
    ∃ links, tree.follow followLast maxLinks [] (FilePath.names directory ++ rest) =
      tree.follow followLast links location rest := by
  obtain ⟨links, hle, hleads⟩ := h.leads_whole
  refine ⟨maxLinks - links, ?_⟩
  rw [← hleads.follow_append hrest, Nat.add_sub_cancel' hle]

theorem Opens.not_lacks {path : String} (h : tree.Opens path location) : ¬tree.Lacks path := by
  intro hlacks
  have hmissing := hlacks false ["."] (List.cons_ne_nil _ _)
  obtain ⟨links, hfollow⟩ := h.follow_append (List.cons_ne_nil "." []) false
  rw [hfollow, follow_idle, follow_nil] at hmissing
  cases hmissing

theorem Opens.lacks_join (h : tree.Opens directory location) (hname : FilePath.IsName name)
    (hentry : tree.entry? (location ++ [name]) = none) :
    tree.Lacks (FilePath.join directory name) := by
  intro followLast rest hrest
  rw [FilePath.names_join directory hname.isPart, List.append_assoc]
  obtain ⟨links, hfollow⟩ := h.follow_append (List.cons_ne_nil name rest) followLast
  rw [List.singleton_append, hfollow, follow_missing (isEntryStep_of_isName hname) hentry, if_neg]
  simpa using hrest

theorem Leads.locate_join {links : Nat}
    (h : tree.Leads links [] (FilePath.names directory) location) (hlinks : links ≤ maxLinks)
    (hname : FilePath.IsName name)
    (hlink : followLast = true → ∀ target, tree.entry? (location ++ [name]) ≠ some (.link target)) :
    tree.locate (FilePath.join directory name) followLast = .ok (location ++ [name]) := by
  obtain ⟨left, hleft⟩ := Nat.exists_eq_add_of_le hlinks
  rw [FileTree.locate_join tree directory hname.isPart, hleft,
    h.follow_append (List.cons_ne_nil name []), follow_last (isEntryStep_of_isName hname) hlink]

theorem Leads.eq_of_locate_join {links : Nat} {found : Location}
    (h : tree.Leads links [] (FilePath.names directory) location) (hlinks : links ≤ maxLinks)
    (hname : FilePath.IsPart name)
    (hfound : tree.locate (FilePath.join directory name) false = .ok found) :
    found = location ++ [name] := by
  obtain ⟨left, hleft⟩ := Nat.exists_eq_add_of_le hlinks
  rw [FileTree.locate_join tree directory hname, hleft,
    h.follow_append (List.cons_ne_nil name [])] at hfound
  by_cases hlong : maxNameOctets < name.utf8ByteSize
  · rw [follow_tooLong hname.ne_dot hname.ne_dots hlong] at hfound
    cases hfound
  · rw [follow_last ⟨hname.ne_dot, hname.ne_dots, Nat.not_lt.mp hlong⟩ (by simp)] at hfound
    exact (Except.ok.inj hfound).symm

theorem Opens.locate_join (h : tree.Opens directory location) (hname : FilePath.IsName name)
    (hlink : followLast = true → ∀ target, tree.entry? (location ++ [name]) ≠ some (.link target)) :
    tree.locate (FilePath.join directory name) followLast = .ok (location ++ [name]) := by
  obtain ⟨links, hle, hleads⟩ := h.leads_whole
  exact hleads.locate_join hle hname hlink

theorem Opens.join (h : tree.Opens directory location) (hname : FilePath.IsName name)
    (hentry : tree.entry? (location ++ [name]) = some .directory) :
    tree.Opens (FilePath.join directory name) (location ++ [name]) := by
  obtain ⟨links, hle, hleads⟩ := h.leads
  refine ⟨hentry, links, hle, ?_⟩
  rw [FilePath.names_join directory hname.isPart]
  have hmono : (tree.clear (location ++ [name])).Leads links [] (FilePath.names directory)
      location := by
    apply hleads.mono
    intro key entry hkey _
    obtain ⟨hbelow, hkey⟩ := entry?_clear_eq_some_iff.mp hkey
    refine entry?_clear_eq_some_iff.mpr ⟨?_, hkey⟩
    rw [Bool.eq_false_iff] at hbelow ⊢
    intro hbelow'
    obtain ⟨rest, -, rfl⟩ := isBelow_iff.mp hbelow'
    rw [List.append_assoc, List.singleton_append] at hbelow
    exact hbelow (isBelow_append_cons location name rest)
  apply hmono.enter_last (isEntryStep_of_isName hname)
  exact entry?_clear_eq_some_iff.mpr ⟨not_isBelow_self _, hentry⟩

end join

end FileTree

end CertRotation
