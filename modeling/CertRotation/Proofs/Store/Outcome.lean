import CertRotation.Proofs.Files.Making
import CertRotation.Proofs.Store.Calls

namespace CertRotation

namespace DirectoryStore

open FileTree (changes_of_update)
open FileProgram (runOn)
open FileWork (Runs runs_attempt runs_call runs_discard runs_pure)
open FileOperation

variable {tree made after : FileTree} {store : DirectoryStore} {id : WebhookIdentity} {dir : String}
  {location : Location} {version : StoredVersion}

/-- A directory was in the way of the link that a call was to replace, or of its draft. Nothing
changed but that the version was written, and that a draft may have been replaced. -/
inductive Blocked (made : FileTree) (dir : String) (location : Location)
    (version : StoredVersion) : FileTree → Prop
  | draft {after : FileTree} (hdraft : made.under location [dataLinkDraft] = some .directory)
      (hafter : made.Changes location (withVersion version (made.under location)) after) :
      Blocked made dir location version after
  | link {after : FileTree} (hlink : made.under location [dataLink] = some .directory)
      (hopens : after.Opens dir location)
      (hafter : after.under location [dataLink] = some .directory) :
      Blocked made dir location version after

/-- Nothing lies below what is not a directory. -/
def EndsAtFiles (entries : Location → Option FileEntry) : Prop :=
  ∀ name, entries [name] ≠ some .directory → ∀ rest, rest ≠ [] → entries (name :: rest) = none

theorem blocked_of_link (h : made.Opens dir location)
    (hdraft : made.under location [dataLinkDraft] ≠ some .directory)
    (hlink : made.under location [dataLink] = some .directory) (version : String) :
    ∃ answer cleared drafted,
      (FileWork.attempt (.removeFile (FilePath.join dir dataLinkDraft))).Runs made answer cleared ∧
      (answer = .ok () ∨ answer = .error .notFound) ∧
      run (.makeLink version (FilePath.join dir dataLinkDraft)) cleared = (.ok (), drafted) ∧
      run (.rename (FilePath.join dir dataLinkDraft) (FilePath.join dir dataLink)) drafted =
        (.error .isDirectory, drafted) ∧
      drafted.Opens dir location ∧ drafted.under location [dataLink] = some .directory := by
  obtain ⟨answer, cleared, hremove, hanswer, hcleared⟩ := runs_removeDraft h hdraft
  have hnone : cleared.under location [dataLinkDraft] = none := by
    rw [hcleared.inside, Function.update_self]
  obtain ⟨drafted, hdrafts, hdrafted⟩ :=
    run_makeLink (h.of_changes hcleared) isName_dataLinkDraft hnone version
  have hstands : drafted.entry? (location ++ [dataLinkDraft]) = some (.link version) := by
    rw [hdrafted, Function.update_self]
  have hchanges := changes_of_update (List.cons_ne_nil _ _) hdrafted
  have hplace : drafted.under location [dataLink] = some .directory := by
    rw [hchanges.inside, Function.update_of_ne (by decide), hcleared.inside,
      Function.update_of_ne (by decide), hlink]
  have hopens := (h.of_changes hcleared).of_changes hchanges
  have hrename := run_rename_onto_directory hopens isName_dataLinkDraft isName_dataLink (by decide)
    hstands (by simp) hplace
  exact ⟨answer, cleared, drafted, hremove, hanswer, hdrafts, hrename, hopens, hplace⟩

theorem runs_removal (dir : String) (before : Except FileFault String) (version : String)
    (switched : FileTree) :
    ∃ after, (match before with
      | .ok old =>
        if old ≠ version then discard (FileWork.attempt (.removeTree (FilePath.join dir old)))
        else pure ()
      | .error _ => pure () : FileWork Unit).Runs switched () after ∧
      (after = switched ∨ ∃ old, before = .ok old ∧ old ≠ version ∧
        after = (switched.removeTree (FilePath.join dir old)).2) := by
  rcases before with fault | old
  · exact ⟨switched, runs_pure () switched, .inl rfl⟩
  by_cases hne : old ≠ version
  · refine ⟨_, ?_, .inr ⟨old, rfl, hne, rfl⟩⟩
    simp only [if_pos hne]
    exact runs_discard (runs_attempt rfl)
  · refine ⟨switched, ?_, .inl rfl⟩
    simp only [if_neg hne]
    exact runs_pure () switched

/-- A call that replaces key material fails at a directory that is in its way, or it replaces the
link and then removes what the link led to before. -/
theorem put_cases (h : tree.Makes (store.identityDir id) location made)
    (hversion : IsVersionName version.name)
    (hunused : ∀ rest, made.under location (version.name :: rest) = none)
    (hends : EndsAtFiles (made.under location)) :
    (∃ failure after, runOn (store.put id version.material version.name).run tree =
        (.error failure, after) ∧ Blocked made (store.identityDir id) location version after) ∨
    ∃ switched after, (store.put id version.material version.name).Runs tree () after ∧
      made.Changes location (withReaderEntry certFile (withReaderEntry keyFile
        (withDataLink version.name (withVersion version (made.under location))))) switched ∧
      (after = switched ∨ ∃ old,
        tree.readLink (FilePath.join (store.identityDir id) dataLink) = .ok old ∧
        old ≠ version.name ∧
        after = (switched.removeTree (FilePath.join (store.identityDir id) old)).2) := by
  have hread : (FileWork.attempt (.readLink (FilePath.join (store.identityDir id) dataLink))).Runs
      tree (tree.readLink (FilePath.join (store.identityDir id) dataLink)) tree := runs_attempt rfl
  obtain ⟨first, hwrite, hfirst⟩ := runs_writeVersion h hversion.isName hunused
  have hopens := h.opens.of_changes hfirst
  have hfixed : ∀ name ∈ fixedNames, ∀ rest,
      first.under location (name :: rest) = made.under location (name :: rest) := by
    intro name hmem rest
    rw [hfirst.inside, withVersion_of_ne (hversion.ne_of_mem hmem).symm]
  -- A directory in the place of the draft ends the call before the link is looked at.
  by_cases hdraft : made.under location [dataLinkDraft] = some .directory
  · have hremove := run_removeFile_directory hopens isName_dataLinkDraft
      ((hfixed dataLinkDraft (by decide) []).trans hdraft)
    refine .inl ⟨.storeIo (.file .remove (FilePath.join (store.identityDir id) dataLinkDraft)),
      first, ?_, .draft hdraft hfirst⟩
    rw [put, hread.runOn_bind, hwrite.runOn_bind, (runs_attempt hremove).runOn_bind]
    rfl
  have hdraft' : first.under location [dataLinkDraft] ≠ some .directory := by
    rw [hfixed dataLinkDraft (by decide)]
    exact hdraft
  by_cases hlink : made.under location [dataLink] = some .directory
  · obtain ⟨answer, cleared, drafted, hremove, hanswer, hdrafts, hrename, hdrafted, hstands⟩ :=
      blocked_of_link hopens hdraft' ((hfixed dataLink (by decide) []).trans hlink) version.name
    refine .inl ⟨.storeIo (.file .rename (FilePath.join (store.identityDir id) dataLinkDraft)),
      drafted, ?_, .link hlink hdrafted hstands⟩
    rw [put, hread.runOn_bind, hwrite.runOn_bind, hremove.runOn_bind]
    rcases hanswer with rfl | rfl
    all_goals
      simp only
      rw [storeCall, (runs_call hdrafts _).runOn_bind]
      exact FileWork.runOn_bind_of_error (FileWork.runOn_call_of_error hrename _)
  refine .inr ?_
  obtain ⟨switched, hswitched, hrest⟩ := runs_switch hopens hdraft'
    (by
      intro rest hrest
      rw [hfixed dataLinkDraft (by decide)]
      exact hends dataLinkDraft hdraft rest hrest)
    (by
      rw [hfixed dataLink (by decide)]
      exact hlink)
  rw [hfirst.inside] at hswitched
  obtain ⟨after, hremoves, hafter⟩ := runs_removal (store.identityDir id)
    (tree.readLink (FilePath.join (store.identityDir id) dataLink)) version.name switched
  refine ⟨switched, after, ?_, hfirst.trans hswitched, hafter⟩
  rw [put]
  apply Runs.bind hread
  apply Runs.bind hwrite
  apply hrest
  rcases hbefore : tree.readLink (FilePath.join (store.identityDir id) dataLink) with fault | old
  · rw [hbefore] at hremoves
    exact hremoves
  · rw [hbefore] at hremoves
    exact hremoves

theorem not_blocked_of_isEmpty (h : made.hasEntries location = false) :
    ¬Blocked made dir location version after := by
  have hempty := FileTree.hasEntries_eq_false_iff.mp h
  have hdirectory : ∀ name, made.under location [name] ≠ some .directory := fun name =>
    FileTree.ne_directory_of_missing (hempty [name] (List.cons_ne_nil _ _))
  intro hblocked
  cases hblocked with
  | draft hdraft _ => exact hdirectory dataLinkDraft hdraft
  | link hlink _ _ => exact hdirectory dataLink hlink

/-- The link in a directory leads to a version that is complete, whatever else stands there. -/
structure Current (tree : FileTree) (dir : String) (location : Location)
    (version : StoredVersion) : Prop where
  opens : tree.Opens dir location
  link : tree.under location [dataLink] = some (.link version.name)
  complete : ∀ rest, tree.under location (version.name :: rest) =
    layout (some version) none (version.name :: rest)

/-- The link in a directory was replaced. Links for readers were made where nothing stood; what
stood there stands still. -/
structure Switched (tree : FileTree) (dir : String) (location : Location)
    (version : StoredVersion) (switched : FileTree) : Prop
    extends Current switched dir location version where
  readers : ∀ file ∈ [keyFile, certFile], ∀ rest, switched.under location (file :: rest) =
    withReaderEntry file (tree.under location) (file :: rest)

theorem switched_of_changes {switched : FileTree} (h : made.Opens dir location)
    (hversion : IsVersionName version.name)
    (hunused : ∀ rest, made.under location (version.name :: rest) = none)
    (hunder : ∀ rest, rest ≠ [] → made.under location rest = tree.under location rest)
    (hswitched : made.Changes location (withReaderEntry certFile (withReaderEntry keyFile
      (withDataLink version.name (withVersion version (made.under location))))) switched) :
    Switched tree dir location version switched := by
  have hne : ∀ name ∈ fixedNames, version.name ≠ name := fun _ => hversion.ne_of_mem
  refine ⟨⟨h.of_changes hswitched, ?_, ?_⟩, ?_⟩
  · rw [hswitched.inside, withReaderEntry_of_ne (by decide), withReaderEntry_of_ne (by decide),
      withDataLink_self]
  · intro rest
    rw [hswitched.inside, withReaderEntry_of_ne (hne _ (by decide)),
      withReaderEntry_of_ne (hne _ (by decide)),
      withDataLink_of_ne (hne _ (by decide)) (hne _ (by decide)),
      withVersion_of_unused hversion hunused]
  · intro file hfile rest
    have hsubset : [keyFile, certFile] ⊆ fixedNames := by decide
    have hother := (hne file (hsubset hfile)).symm
    rw [hswitched.inside, withReaderEntries_reader hfile, withReaderEntry_self,
      withReaderEntry_self, withDataLink_of_reader hfile, withDataLink_of_reader hfile,
      withVersion_of_ne hother, withVersion_of_ne hother, hunder _ (List.cons_ne_nil _ _),
      hunder _ (List.cons_ne_nil _ _)]

section outcome

variable (hgrounded : tree.IsGrounded)
  (hfooting : tree.HasFooting (store.identityDir id))
  (hown : ∀ location, tree.find (store.identityDir id) true = .ok (location, .directory) →
    tree.Opens (store.identityDir id) location)
  (hversion : IsVersionName version.name)
  (hunused : ∀ key, version.name ∈ key → tree.entry? key = none)

include hgrounded hfooting hown hversion hunused

/-- Key material is put into the directory of an identity that is there, or into one that is made
empty. It is served at the end, or a directory was in the way, or next to nothing has happened. -/
theorem put_outcome :
    (∃ failure after, runOn (store.put id version.material version.name).run tree =
        (.error failure, after) ∧
      (after = tree ∨
        (∃ name ∈ FilePath.names (store.identityDir id),
          FileTree.maxNameOctets < name.utf8ByteSize) ∨
        ∃ location, tree.Opens (store.identityDir id) location ∧
          Blocked tree (store.identityDir id) location version after)) ∨
    ∃ location switched after, Switched tree (store.identityDir id) location version switched ∧
      (store.put id version.material version.name).Runs tree () after ∧
      (after = switched ∨ ∃ old,
        tree.readLink (FilePath.join (store.identityDir id) dataLink) = .ok old ∧
        old ≠ version.name ∧
        after = (switched.removeTree (FilePath.join (store.identityDir id) old)).2) := by
  have hkind := (isName_kind id.kind).isPart
  obtain ⟨location, made, hmakes, hmade⟩ | ⟨fault, made, hfails, hmade⟩ :=
    FileTree.makes_or_fails hgrounded hkind rfl hfooting hown
  · have hunder : ∀ rest, rest ≠ [] → made.under location rest = tree.under location rest :=
      fun rest => hgrounded.under_eq hmade
    have hnone : ∀ rest, made.under location (version.name :: rest) = none := by
      intro rest
      rw [hunder _ (List.cons_ne_nil _ _)]
      exact hunused _ (List.mem_append_right location List.mem_cons_self)
    have hends : EndsAtFiles (made.under location) := by
      intro name hname rest hrest
      rw [hunder _ (List.cons_ne_nil _ _)] at hname ⊢
      have hbelow := hgrounded.entry?_append hname hrest
      rw [List.append_assoc] at hbelow
      exact hbelow
    obtain ⟨failure, after, hput, hblocked⟩ | ⟨switched, after, hput, hswitched, hafter⟩ :=
      put_cases hmakes hversion hnone hends
    · refine .inl ⟨failure, after, hput, ?_⟩
      rcases hmade with rfl | ⟨-, hempty⟩
      · exact .inr (.inr ⟨location, hmakes.opens, hblocked⟩)
      · exact absurd hblocked (not_blocked_of_isEmpty hempty)
    · exact .inr ⟨location, switched, after,
        switched_of_changes hmakes.opens hversion hnone hunder hswitched, hput, hafter⟩
  · obtain ⟨fault', made', hfails', hmade'⟩ := FileTree.makeDirectories_join_of_error
      hversion.isName.isPart (FilePath.withoutIdleAtEnd_join _ hkind) hfails
    have hrun : run (.makeDirectories (FilePath.join (store.identityDir id) version.name)) tree =
        (.error fault', made') := hfails'
    obtain ⟨failure, hput⟩ := runOn_put_of_error hrun version.material
    refine .inl ⟨failure, made', hput, ?_⟩
    rcases hmade' with rfl | rfl
    · rcases hmade with rfl | hlong
      · exact .inl rfl
      · exact .inr (.inl hlong)
    · exact .inl rfl

end outcome

end DirectoryStore

end CertRotation
