import CertRotation.Proofs.Fallible
import CertRotation.Proofs.Files.Directories

namespace CertRotation

namespace FileTree

variable {tree made : FileTree} {directory location : Location} {steps : List String}

/-- Where a step leads from a directory if no link stands there. -/
def arriveStep (directory : Location) (step : String) : Location :=
  if step = "." then directory
  else if step = ".." then directory.dropLast
  else directory ++ [step]

/-- Where steps lead from a directory if no link stands on the way. -/
def arrive (directory : Location) (steps : List String) : Location :=
  steps.foldl arriveStep directory

theorem arrive_append (directory : Location) (before rest : List String) :
    arrive directory (before ++ rest) = arrive (arrive directory before) rest :=
  List.foldl_append

theorem arriveStep_eq {name : String} (h : IsEntryStep name) :
    arriveStep directory name = directory ++ [name] := by
  rw [arriveStep, if_neg h.1, if_neg h.2.1]

theorem arrive_concat {name : String} (h : IsEntryStep name) :
    arrive directory (steps ++ [name]) = arrive directory steps ++ [name] := by
  rw [arrive_append]
  exact arriveStep_eq h

/-- No link stands where the steps lead, nor anywhere on the way. -/
def IsLinkFree (tree : FileTree) (directory : Location) (steps : List String) : Prop :=
  ∀ before, before <+: steps → ∀ target,
    tree.entry? (arrive directory before) ≠ some (.link target)

theorem IsLinkFree.shorter {before : List String} (h : tree.IsLinkFree directory steps)
    (hbefore : before <+: steps) : tree.IsLinkFree directory before := fun shorter hshorter =>
  h shorter (hshorter.trans hbefore)

theorem IsLinkFree.tail {step : String} {rest : List String}
    (h : tree.IsLinkFree directory (step :: rest)) :
    tree.IsLinkFree (arriveStep directory step) rest := by
  intro before hbefore target
  exact h (step :: before) (List.cons_prefix_cons.mpr ⟨rfl, hbefore⟩) target

theorem IsLinkFree.head {name target : String} {rest : List String}
    (h : tree.IsLinkFree directory (name :: rest)) (hname : IsEntryStep name) :
    tree.entry? (directory ++ [name]) ≠ some (.link target) := by
  have hstands := h [name] (List.prefix_append [name] rest) target
  rw [← arriveStep_eq hname]
  exact hstands

theorem Leads.of_isLinkFree {links : Nat} (h : tree.Leads links directory steps location)
    (hfree : tree.IsLinkFree directory steps) :
    links = 0 ∧ location = arrive directory steps := by
  induction h with
  | here directory => exact ⟨rfl, rfl⟩
  | idle _ ih => exact ih hfree.tail
  | up _ ih => exact ih hfree.tail
  | enter hname _ _ ih =>
      have htail := hfree.tail
      rw [arriveStep_eq hname] at htail
      obtain ⟨hlinks, hlocation⟩ := ih htail
      refine ⟨hlinks, hlocation.trans ?_⟩
      rw [← arriveStep_eq hname]
      rfl
  | link hname hentry _ _ => exact absurd hentry (hfree.head hname)

theorem Leads.before {before rest : List String}
    (h : tree.Leads 0 directory (before ++ rest) location) :
    tree.Leads 0 directory before (arrive directory before) := by
  induction before generalizing directory with
  | nil => exact .here directory
  | cons step before ih =>
      cases h with
      | idle hrest => exact .idle (ih hrest)
      | up hrest => exact .up (ih hrest)
      | enter hname hentry hrest =>
          apply Leads.enter hname hentry
          rw [← arriveStep_eq hname] at hrest ⊢
          exact ih hrest

/-- Directories were made on the way of some steps, where nothing stood, and nothing else has
changed. -/
def Paves (tree : FileTree) (steps : List String) (made : FileTree) : Prop :=
  ∀ key, made.entry? key = tree.entry? key ∨
    tree.entry? key = none ∧ made.entry? key = some .directory ∧
      ∃ before, before <+: steps ∧ key = arrive [] before

theorem paves_refl (tree : FileTree) (steps : List String) : tree.Paves steps tree :=
  fun _ => .inl rfl

theorem Paves.trans {between : FileTree} (h : tree.Paves steps between)
    (h' : between.Paves steps made) : tree.Paves steps made := by
  intro key
  rcases h' key with hsame' | ⟨hnone', hmade'⟩
  · rw [hsame']
    exact h key
  · rcases h key with hsame | ⟨-, hmade, -⟩
    · rw [hsame] at hnone'
      exact .inr ⟨hnone', hmade'⟩
    · rw [hmade] at hnone'
      cases hnone'

theorem Paves.longer {before : List String} (h : tree.Paves before made)
    (hbefore : before <+: steps) : tree.Paves steps made := by
  intro key
  rcases h key with hsame | ⟨hnone, hmade, shorter, hshorter, hkey⟩
  · exact .inl hsame
  · exact .inr ⟨hnone, hmade, shorter, hshorter.trans hbefore, hkey⟩

theorem Paves.keeps (h : tree.Paves steps made) {key : Location} {entry : FileEntry}
    (hkey : tree.entry? key = some entry) : made.entry? key = some entry := by
  rcases h key with hsame | ⟨hnone, -⟩
  · rw [hsame, hkey]
  · rw [hkey] at hnone
    cases hnone

theorem Paves.entry?_ne_link (h : tree.Paves steps made) {key : Location} {target : String}
    (hkey : tree.entry? key ≠ some (.link target)) : made.entry? key ≠ some (.link target) := by
  rcases h key with hsame | ⟨-, hmade, -⟩
  · rw [hsame]
    exact hkey
  · rw [hmade]
    exact fun heq => nomatch heq

theorem Paves.isLinkFree {steps' : List String} (h : tree.Paves steps made)
    (hfree : tree.IsLinkFree directory steps') : made.IsLinkFree directory steps' :=
  fun before hbefore target => h.entry?_ne_link (hfree before hbefore target)

theorem makeDirectory_eq_ok {path : String} (h : tree.makeDirectory path = .ok made) :
    ∃ location, tree.follow false maxLinks [] (FilePath.names path) = .ok location ∧
      tree.entry? location = none ∧ made = tree.insert location .directory := by
  rw [makeDirectory, FilePath.steps_withoutSlashesAtEnd] at h
  obtain ⟨location, hfollow, h⟩ := bind_eq_ok_iff.mp h
  rcases hentry : tree.entry? location with _ | entry
  · rw [hentry] at h
    cases h
    exact ⟨location, hfollow, hentry, rfl⟩
  · rw [hentry] at h
    cases h

/-- Directories were made on the way of some steps, among them all those of a path if that has not
failed. -/
structure PavesUpTo (tree : FileTree) (steps : List String) (path : String)
    (result : Except FileFault Unit × FileTree) : Prop where
  paves : tree.Paves steps result.2
  leads : result.1 = .ok () →
    result.2.Leads 0 [] (FilePath.names path) (arrive [] (FilePath.names path))

variable {path : String}

theorem pavesUpTo_makeOrKeep (h : tree.IsLinkFree [] (FilePath.names path)) :
    tree.PavesUpTo (FilePath.names path) path (tree.makeOrKeep path) := by
  rcases hmake : tree.makeDirectory path with fault | made
  · have heq : tree.makeOrKeep path =
        (if tree.isDirectory path then .ok () else .error fault, tree) := by
      rw [makeOrKeep, hmake]
    rw [heq]
    refine ⟨paves_refl tree _, ?_⟩
    intro hok
    have hdirectory : tree.isDirectory path = true := by
      by_contra hnot
      simp only [hnot, if_false] at hok
      cases hok
    obtain ⟨location, hfind⟩ := isDirectory_iff.mp hdirectory
    obtain ⟨links, -, hleads⟩ := exists_leads_of_find hfind
    obtain ⟨rfl, rfl⟩ := hleads.of_isLinkFree h
    exact hleads
  · obtain ⟨location, hfollow, hnone, rfl⟩ := makeDirectory_eq_ok hmake
    have hne := ne_nil_of_entry?_ne (ne_directory_of_missing hnone)
    have hentry := entry?_insert tree hne .directory
    have hfree : IsLinkFree (tree.insert location .directory) [] (FilePath.names path) := by
      intro before hbefore target
      rw [hentry, Function.update_apply]
      split
      · simp
      · exact h before hbefore target
    obtain ⟨links, -, hleads⟩ := leads_of_follow hfollow (insert_keeps hnone) (by
      rw [hentry, Function.update_self])
    obtain ⟨rfl, rfl⟩ := hleads.of_isLinkFree hfree
    rw [makeOrKeep, hmake]
    refine ⟨?_, fun _ => hleads⟩
    intro key
    rw [hentry]
    rcases eq_or_ne key (arrive [] (FilePath.names path)) with rfl | hother
    · rw [Function.update_self]
      exact .inr ⟨hnone, rfl, _, List.prefix_rfl, rfl⟩
    · rw [Function.update_of_ne hother]
      exact .inl rfl

theorem pavesUpTo_of_above {above : List String} (hpath : FilePath.names path <+: steps)
    (h : tree.IsLinkFree [] steps) (habove : tree.Paves steps (tree.makeMissing above).2) :
    tree.PavesUpTo steps path (tree.makeMissing (path :: above)) := by
  by_cases hempty : path = ""
  · subst path
    exact ⟨paves_refl tree _, fun _ => .here []⟩
  by_cases hmissing : tree.makeDirectory path = .error .notFound
  · rcases hmade : tree.makeMissing above with ⟨fault | _, made⟩
    · rw [makeMissing_of_error hempty hmissing hmade]
      rw [hmade] at habove
      exact ⟨habove, fun hok => nomatch hok⟩
    · rw [makeMissing_of_makes hempty hmissing hmade]
      rw [hmade] at habove
      obtain ⟨hpaves, hleads⟩ := pavesUpTo_makeOrKeep ((habove.isLinkFree h).shorter hpath)
      exact ⟨habove.trans (hpaves.longer hpath), hleads⟩
  · rw [makeMissing_of_ne hempty hmissing]
    obtain ⟨hpaves, hleads⟩ := pavesUpTo_makeOrKeep (h.shorter hpath)
    exact ⟨hpaves.longer hpath, hleads⟩

theorem pavesUpTo_makeMissing {above : List String} (h : tree.IsLinkFree [] steps)
    (hpaths : ∀ other ∈ path :: above, FilePath.names other <+: steps) :
    tree.PavesUpTo steps path (tree.makeMissing (path :: above)) := by
  have hpath := hpaths path List.mem_cons_self
  induction above generalizing path with
  | nil => exact pavesUpTo_of_above hpath h (paves_refl tree steps)
  | cons next above ih =>
      have hnext := fun other hmem => hpaths other (List.mem_cons_of_mem path hmem)
      exact pavesUpTo_of_above hpath h (ih hnext (hnext next List.mem_cons_self)).paves

theorem pavesUpTo_makeDirectories (h : tree.IsLinkFree [] (FilePath.names path)) :
    tree.PavesUpTo (FilePath.names path) path (tree.makeDirectories path) := by
  have hancestors := fun above => @FilePath.names_prefix_of_mem_ancestors path above
  rw [FilePath.ancestors, FilePath.ancestorsWithin_succ] at hancestors
  rw [makeDirectories, FilePath.ancestors, FilePath.ancestorsWithin_succ]
  exact pavesUpTo_makeMissing h hancestors

end FileTree

end CertRotation
