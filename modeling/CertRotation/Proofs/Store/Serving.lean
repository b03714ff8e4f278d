import CertRotation.Proofs.Store.Calls
import CertRotation.Proofs.Store.Published
import CertRotation.Proofs.Store.Writers

namespace CertRotation

namespace DirectoryStore

open FileTree (changes_of_update)
open FileOperation (run)
open Function (update)

variable {tree made after : FileTree} {dir : String} {location : Location}
  {swapped waiting : List StoredVersion} {version : StoredVersion}
  {entries : Location → Option FileEntry}

/-- The directory is there, and its versions are as they should be. -/
structure Serving (dir : String) (location : Location) (waiting : List StoredVersion)
    (tree : FileTree) (swapped : List StoredVersion) : Prop where
  opens : tree.Opens dir location
  published : Published (tree.under location) swapped waiting

/-- The same of a directory that need not be there before something was switched to. -/
def Serves (dir : String) (location : Location) (waiting : List StoredVersion)
    (tree : FileTree) (swapped : List StoredVersion) : Prop :=
  ∃ made, tree.Makes dir location made ∧ (made = tree ∨ swapped = []) ∧
    Published (made.under location) swapped waiting

theorem Serving.serves (h : Serving dir location waiting tree swapped) :
    Serves dir location waiting tree swapped :=
  ⟨tree, h.opens.makes, .inl rfl, h.published⟩

theorem Serving.of_changes {swapped' : List StoredVersion}
    (h : tree.Opens dir location) (hchanges : tree.Changes location entries after)
    (hpublished : Published entries swapped' waiting) :
    Serving dir location waiting after swapped' :=
  ⟨h.of_changes hchanges, hchanges.inside ▸ hpublished⟩

theorem Serves.serving_or (h : Serves dir location waiting tree swapped) :
    Serving dir location waiting tree swapped ∨ tree.Lacks dir ∧ swapped = [] := by
  obtain ⟨made, hmakes, rfl | hnone, hpublished⟩ := h
  · exact .inl ⟨hmakes.opens, hpublished⟩
  · rcases hmakes.lacks_or with hlacks | rfl
    · exact .inr ⟨hlacks, hnone⟩
    · exact .inl ⟨hmakes.opens, hpublished⟩

theorem Serves.run_readLink (h : Serves dir location waiting tree swapped) :
    run (.readLink (FilePath.join dir dataLink)) tree = (linkTo swapped.head?, tree) := by
  rcases h.serving_or with hserving | ⟨hlacks, rfl⟩
  · exact run_readLink_of_opens hserving.opens hserving.published.link
  · exact run_readLink_of_lacks hlacks

theorem Serves.runs_get {store : DirectoryStore} {id : WebhookIdentity}
    (h : Serves (store.identityDir id) location waiting tree swapped) :
    (store.get id).Runs tree (swapped.head?.map StoredVersion.material) tree := by
  rcases h.serving_or with hserving | ⟨hlacks, rfl⟩
  · have hpublished := hserving.published
    refine runs_get_of_opens hserving.opens hpublished.link fun version hmem =>
      ⟨?_, hpublished.complete version hmem⟩
    exact hpublished.isVersionName version
      (List.mem_append_left _ (List.mem_of_mem_head? hmem))
  · exact runs_get_of_lacks hlacks

/-- A file of a version that was switched to at some time holds what was written there, or is gone,
which it is not while the version is served. -/
theorem Serves.run_read {file : String} {isPrivate : Bool} {expected : Octets}
    (h : Serves dir location waiting tree swapped) (hmem : version ∈ swapped)
    (hfile : FilePath.IsName file)
    (hexpected : layout (some version) none [version.name, file] =
      some (.file expected isPrivate)) :
    let read := run (.read (FilePath.join (FilePath.join dir version.name) file)) tree
    read = (.ok expected, tree) ∨
      read = (.error .notFound, tree) ∧ version ∉ swapped.head? := by
  have hserving : Serving dir location waiting tree swapped := by
    apply h.serving_or.resolve_right
    rintro ⟨-, rfl⟩
    cases hmem
  have hversion := hserving.published.isVersionName version (List.mem_append_left _ hmem)
  have hown := hserving.published.own version hmem
  have hserved : ∀ rest, tree.under location (version.name :: rest) = none →
      layout (some version) none (version.name :: rest) ≠ none → version ∉ swapped.head? := by
    intro rest hnone hstands hhead
    rw [hserving.published.complete version hhead] at hnone
    exact hstands hnone
  rcases hown [] with hnone | hdirectory
  · have hlacks := hserving.opens.lacks_join hversion.isName hnone
    refine .inr ⟨FileOperation.run_read_notFound (hlacks.find_join hfile true), ?_⟩
    apply hserved [] hnone
    rw [layout_version hversion]
    exact Option.some_ne_none _
  rw [layout_version hversion] at hdirectory
  have hopens := hserving.opens.join hversion.isName hdirectory
  have hentry : tree.entry? (location ++ [version.name] ++ [file]) =
      tree.under location [version.name, file] := by
    rw [List.append_assoc]
    rfl
  rcases hown [file] with hnone | hsame
  · rw [hnone] at hentry
    refine .inr ⟨FileOperation.run_read_notFound (hopens.find_join_none hfile hentry true), ?_⟩
    apply hserved [file] hnone
    rw [hexpected]
    exact Option.some_ne_none _
  · rw [hsame, hexpected] at hentry
    exact .inl (FileOperation.run_read (hopens.find_join hfile hentry (by simp)))

theorem Serves.eq_of_read {file : String} {isPrivate : Bool} {expected contents : Octets}
    (h : Serves dir location waiting tree swapped) (hmem : version ∈ swapped)
    (hfile : FilePath.IsName file)
    (hexpected : layout (some version) none [version.name, file] =
      some (.file expected isPrivate))
    (hread : run (.read (FilePath.join (FilePath.join dir version.name) file)) tree =
      (.ok contents, after)) :
    contents = expected := by
  rcases h.run_read hmem hfile hexpected with heq | ⟨heq, -⟩
  · rw [heq] at hread
    cases hread
    rfl
  · rw [heq] at hread
    cases hread

theorem keeps_writeVersion (hmakes : tree.Makes dir location made)
    (hmade : made = tree ∨ swapped = [])
    (hpublished : Published (made.under location) swapped waiting)
    (hversion : IsVersionName version.name)
    (hfresh : ∀ other ∈ swapped ++ waiting, other.name ≠ version.name)
    (hunused : ∀ rest, made.under location (version.name :: rest) = none) :
    Keeps dir version (Serves dir location waiting)
      (fun _ after swapped' => swapped' = swapped ∧
        Serving dir location waiting after swapped ∧ ∀ rest,
          after.under location (version.name :: rest) =
            layout (some version) none (version.name :: rest))
      (writeVersion (FilePath.join dir version.name) version.material) tree swapped := by
  have hname := hversion.notMem_links
  -- Every call changes something in the version alone.
  have hserving : ∀ {before after : FileTree} {rest entry},
      Serving dir location waiting before swapped →
      before.Changes location (update (before.under location) (version.name :: rest) entry) after →
      Serving dir location waiting after swapped := fun hbefore hchanges =>
    .of_changes hbefore.opens hchanges (hbefore.published.update_of_fresh hname hfresh _ _)
  obtain ⟨first, second, third, fourth, ⟨hmake, hwrite, hchmod, hwrite'⟩, hfirst, hsecond, hthird,
    hfourth⟩ := run_writeVersion hmakes hversion.isName hunused
  have hserving₁ : Serving dir location waiting first swapped := .of_changes hmakes.opens hfirst
    (hpublished.update_of_fresh hname hfresh _ _)
  have hserving₂ := hserving hserving₁ hsecond
  have hserving₃ := hserving hserving₂ hthird
  have hnow : Serves dir location waiting tree swapped := ⟨made, hmakes, hmade, hpublished⟩
  rw [writeVersion]
  apply keeps_call_bind rfl hnow hmake
  apply keeps_call_bind rfl hserving₁.serves hwrite
  apply keeps_call_bind rfl hserving₂.serves hchmod
  apply keeps_call rfl hserving₃.serves hwrite'
  refine ⟨rfl, .of_changes hmakes.opens hfourth (hpublished.of_fresh hname hfresh ?_), ?_⟩
  · intro first rest hne
    exact withVersion_of_ne hne _ rest
  · intro rest
    rw [hfourth.inside, withVersion_of_unused hversion hunused]

theorem Serving.run_removeDraft (h : Serving dir location waiting tree swapped) :
    ∃ answer after,
      run (.removeFile (FilePath.join dir dataLinkDraft)) tree = (answer, after) ∧
      (answer = .ok () ∨ answer = .error .notFound) ∧
      tree.Changes location (update (tree.under location) [dataLinkDraft] none) after := by
  rcases hentry : tree.under location [dataLinkDraft] with _ | entry
  · refine ⟨_, tree, FileOperation.run_removeFile_notFound
      (h.opens.find_join_none isName_dataLinkDraft hentry false), .inr rfl, ?_⟩
    rw [← hentry, Function.update_eq_self]
    exact FileTree.changes_refl tree location
  · have hfile : entry ≠ .directory := by
      rintro rfl
      exact h.published.draft hentry
    obtain ⟨after, hremove, hafter⟩ :=
      FileOperation.run_removeFile h.opens isName_dataLinkDraft hentry hfile
    exact ⟨_, after, hremove, .inl rfl, changes_of_update (List.cons_ne_nil _ _) hafter⟩

theorem keeps_ensureReaderLink {file : String} (h : Serving dir location waiting tree swapped)
    (hfile : file ∈ [keyFile, certFile]) :
    Keeps dir version (Serves dir location waiting)
      (fun _ after swapped' => swapped' = swapped ∧ Serving dir location waiting after swapped)
      (ensureReaderLink dir file) tree swapped := by
  have hsubset : [keyFile, certFile] ⊆ fixedNames := by decide
  have hname := isName_of_mem_fixedNames (hsubset hfile)
  rw [ensureReaderLink]
  rcases hentry : tree.under location [file] with _ | entry
  · obtain ⟨after, hlink, hafter⟩ :=
      FileOperation.run_makeLink h.opens hname hentry (FilePath.join dataLink file)
    apply keeps_attempt_bind rfl h.serves
      (FileOperation.run_probe_notFound (h.opens.find_join_none hname hentry false))
    apply keeps_call rfl h.serves hlink
    refine ⟨rfl, .of_changes h.opens (changes_of_update (List.cons_ne_nil _ _) hafter) ?_⟩
    have hother : ∀ file ∈ [keyFile, certFile], file ∉ [dataLink, dataLinkDraft] := by decide
    exact h.published.update_of_fresh (hother file hfile)
      (h.published.name_ne (hsubset hfile)) [] _
  · apply keeps_attempt_bind rfl h.serves
      (FileOperation.run_probe (h.opens.find_join hname hentry (by simp)))
    exact keeps_pure ⟨rfl, h⟩

theorem Serving.crumble {served : StoredVersion}
    (h : Serving dir location waiting tree (served :: swapped)) (hmem : version ∈ swapped)
    (below : Location) :
    Serving dir location waiting
      ((FileOperation.removeTree (FilePath.join dir version.name)).crumble tree below)
      (served :: swapped) := by
  have hname := h.published.isVersionName version
    (List.mem_append_left _ (List.mem_cons_of_mem _ hmem))
  rcases below with _ | ⟨first, rest⟩
  · exact h
  · have hlocate : tree.locate (FilePath.join dir version.name) false =
        .ok (location ++ [version.name]) := h.opens.locate_join hname.isName (by simp)
    have herase := tree.entry?_erase
      (List.append_ne_nil_of_right_ne_nil location (List.cons_ne_nil version.name (first :: rest)))
    simp only [FileOperation.crumble, hlocate, List.append_assoc, List.singleton_append]
    apply Serving.of_changes h.opens (changes_of_update (List.cons_ne_nil _ _) herase)
    apply h.published.lose_version hmem
    · intro other more hne
      exact Function.update_of_ne (by simp [hne]) ..
    · intro more
      rw [Function.update_apply]
      split
      · exact .inl rfl
      · exact .inr rfl

theorem Serving.crumbled {served : StoredVersion}
    (h : Serving dir location waiting tree (served :: swapped)) (hmem : version ∈ swapped)
    (losses : List Location) :
    Serving dir location waiting
      ((FileOperation.removeTree (FilePath.join dir version.name)).crumbled tree losses)
      (served :: swapped) := by
  rw [FileOperation.crumbled]
  induction losses generalizing tree with
  | nil => exact h
  | cons below losses ih => exact ih (h.crumble hmem below)

theorem Serving.removeVersion {served : StoredVersion}
    (h : Serving dir location waiting tree (served :: swapped)) (hmem : version ∈ swapped) :
    let removed := (run (.removeTree (FilePath.join dir version.name)) tree).2
    Serving dir location waiting removed (served :: swapped) ∧
      removed.Lacks (FilePath.join dir version.name) := by
  have hmem' := List.mem_cons_of_mem served hmem
  have hname := h.published.isVersionName version (List.mem_append_left _ hmem')
  have hstands : tree.under location [version.name] = none ∨
      tree.under location [version.name] = some .directory := by
    have hown := h.published.own version hmem' []
    rw [layout_version hname] at hown
    exact hown
  rcases hstands with hnone | hdirectory
  · rw [FileOperation.run_removeTree_notFound (h.opens.find_join_none hname.isName hnone false)]
    exact ⟨h, h.opens.lacks_join hname.isName hnone⟩
  · obtain ⟨after, hremove, hafter⟩ := run_removeVersion h.opens hname.isName hdirectory
    have hserving : Serving dir location waiting after (served :: swapped) := by
      apply Serving.of_changes h.opens hafter
      apply h.published.lose_version hmem
      · intro other rest hne
        simp [withoutVersion, hne.symm]
      · intro rest
        simp [withoutVersion]
    have hgone : after.under location [version.name] = none := by
      rw [hafter.inside]
      simp [withoutVersion]
    rw [hremove]
    exact ⟨hserving, hserving.opens.lacks_join hname.isName hgone⟩

section

variable {Ends : Unit → FileTree → List StoredVersion → Prop} {next : FileWork Unit}

theorem keeps_switch (h : Serving dir location waiting tree swapped)
    (hdraft : tree.under location [dataLinkDraft] = none)
    (hversion : IsVersionName version.name)
    (hfresh : ∀ other ∈ swapped ++ waiting, other.name ≠ version.name)
    (hcomplete : ∀ rest, tree.under location (version.name :: rest) =
      layout (some version) none (version.name :: rest))
    (hnext : ∀ after, Serving dir location waiting after (version :: swapped) →
      Keeps dir version (Serves dir location waiting) Ends next after (version :: swapped)) :
    let link := FilePath.join dir dataLink
    let draft := FilePath.join dir dataLinkDraft
    Keeps dir version (Serves dir location waiting) Ends
      (do
        storeCall .link draft (.makeLink version.name draft)
        storeCall .rename draft (.rename draft link)
        next)
      tree swapped := by
  have hunused : ∀ rest, tree.under location (dataLinkDraft :: rest) = none := by
    intro rest
    rcases eq_or_ne rest [] with rfl | hrest
    · exact hdraft
    · exact h.published.draftEnds rest hrest
  have hplace : tree.under location [dataLink] ≠ some .directory := by
    rw [h.published.link]
    simp
  obtain ⟨drafted, hlink, hdrafted⟩ :=
    FileOperation.run_makeLink h.opens isName_dataLinkDraft hdraft version.name
  obtain ⟨after, hrename, hafter⟩ := run_rename_draft h.opens isName_dataLinkDraft isName_dataLink
    (by decide) (by simp) hunused hplace hdrafted
  have hserving := Serving.of_changes h.opens (changes_of_update (List.cons_ne_nil _ _) hdrafted)
    (h.published.update_draft (by simp))
  have hswapped : swappedAfter dir version
      (.rename (FilePath.join dir dataLinkDraft) (FilePath.join dir dataLink)) (.ok ()) swapped =
        version :: swapped := by
    simp [swappedAfter, swaps]
  apply keeps_call_bind rfl h.serves hlink
  apply keeps_call_bind rfl hserving.serves hrename
  rw [hswapped]
  apply hnext
  apply Serving.of_changes h.opens hafter
  rw [Function.update_idem]
  apply (h.published.update_draft (by simp)).swap hversion hfresh
  have hne : version.name ≠ dataLinkDraft := hversion.ne_of_mem (by decide)
  intro rest
  rw [Function.update_of_ne (by simp [hne]), hcomplete]

theorem keeps_readerLinks (h : Serving dir location waiting tree swapped)
    (hnext : ∀ after, Serving dir location waiting after swapped →
      Keeps dir version (Serves dir location waiting) Ends next after swapped) :
    Keeps dir version (Serves dir location waiting) Ends
      (do
        ensureReaderLink dir keyFile
        ensureReaderLink dir certFile
        next)
      tree swapped := by
  apply (keeps_ensureReaderLink h (by decide)).bind
  rintro _ tree _ ⟨rfl, h⟩
  apply (keeps_ensureReaderLink h (by decide)).bind
  rintro _ tree _ ⟨rfl, h⟩
  exact hnext tree h

end

theorem keeps_removeVersion {old : StoredVersion} {older : List StoredVersion}
    (h : Serving dir location waiting tree (version :: old :: older)) :
    Keeps dir version (Serves dir location waiting)
      (fun _ after swapped => swapped = version :: old :: older ∧
        Serves dir location waiting after swapped ∧ after.Lacks (FilePath.join dir old.name))
      (if old.name ≠ version.name then
        discard (FileWork.attempt (.removeTree (FilePath.join dir old.name)))
      else pure ())
      tree (version :: old :: older) := by
  rw [if_pos (h.published.name_ne_served old List.mem_cons_self)]
  apply Keeps.discard
  intro losses
  have hcrumbled := h.crumbled List.mem_cons_self losses
  obtain ⟨hserving, hlacks⟩ := hcrumbled.removeVersion List.mem_cons_self
  exact ⟨hcrumbled.serves, _, rfl, rfl, hserving.serves, hlacks⟩

/-- A writer finds its way whatever the one before it left, and ends with its version served and the
one before gone. -/
theorem keeps_put {store : DirectoryStore} {id : WebhookIdentity}
    (h : Serves (store.identityDir id) location (version :: waiting) tree swapped) :
    Keeps (store.identityDir id) version (Serves (store.identityDir id) location waiting)
      (fun _ after swapped' => swapped' = version :: swapped ∧
        Serves (store.identityDir id) location waiting after swapped' ∧
        ∀ old ∈ swapped.head?, after.Lacks (FilePath.join (store.identityDir id) old.name))
      (store.put id version.material version.name) tree swapped := by
  obtain ⟨made, hmakes, hmade, hpublished⟩ := h
  obtain ⟨hpublished, hversion, hfresh, hunused⟩ := hpublished.next
  have hnow : Serves (store.identityDir id) location waiting tree swapped :=
    ⟨made, hmakes, hmade, hpublished⟩
  rw [put]
  apply keeps_attempt_bind rfl hnow hnow.run_readLink
  apply (keeps_writeVersion hmakes hmade hpublished hversion hfresh hunused).bind
  rintro _ written swapped ⟨rfl, hwritten, hcomplete⟩
  obtain ⟨answer, cleared, hremove, hanswer, hcleared⟩ := hwritten.run_removeDraft
  apply keeps_attempt_bind rfl hwritten.serves hremove
  have hserving : Serving (store.identityDir id) location waiting cleared swapped :=
    .of_changes hwritten.opens hcleared (hwritten.published.update_draft (by simp))
  have hdraft : cleared.under location [dataLinkDraft] = none :=
    hcleared.inside ▸ Function.update_self ..
  have hcomplete : ∀ rest, cleared.under location (version.name :: rest) =
      layout (some version) none (version.name :: rest) := by
    have hne : version.name ≠ dataLinkDraft := hversion.ne_of_mem (by decide)
    intro rest
    rw [hcleared.inside, Function.update_of_ne (by simp [hne]), hcomplete]
  -- The draft may have been there or not; the rest is the same.
  rcases hanswer with rfl | rfl
  all_goals
    apply keeps_switch hserving hdraft hversion hfresh hcomplete
    intro switched hswitched
    apply keeps_readerLinks hswitched
    intro linked hlinked
    rcases swapped with _ | ⟨old, older⟩
    · exact keeps_pure ⟨rfl, hlinked.serves, by rintro _ ⟨⟩⟩
    · apply Guards.mono (keeps_removeVersion hlinked)
      rintro _ _ _ ⟨_, hresult, hswapped, hserves, hlacks⟩
      refine ⟨_, hresult, hswapped, hserves, ?_⟩
      rintro _ ⟨⟩
      exact hlacks

theorem guards_put {store : DirectoryStore} {id : WebhookIdentity}
    (h : Serves (store.identityDir id) location (version :: waiting) tree swapped) :
    Guards (store.identityDir id) version (Serves (store.identityDir id) location waiting)
      (fun _ => Serves (store.identityDir id) location waiting)
      (store.put id version.material version.name).run tree swapped := by
  apply Guards.mono (keeps_put h)
  rintro _ _ _ ⟨_, _, _, hserves, -⟩
  exact hserves

end DirectoryStore

end CertRotation
