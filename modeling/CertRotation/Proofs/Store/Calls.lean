import CertRotation.Proofs.Files.Directories
import CertRotation.Proofs.Files.Work
import CertRotation.Proofs.Store.Layout

namespace CertRotation

namespace DirectoryStore

open FileTree (changes_of_update)
open FileWork (Runs runs_call runs_attempt runs_pure runs_readOptional runs_readOptional_none)
open FileOperation

variable {tree made : FileTree} {dir : String} {location : Location}

theorem isName_kind (kind : WebhookKind) : FilePath.IsName kind.name := by
  cases kind <;> constructor <;> decide

/-- The four calls that write a version, with what each of them changes. -/
theorem run_writeVersion {version : StoredVersion} (h : tree.Makes dir location made)
    (hname : FilePath.IsName version.name)
    (hunused : ∀ rest, made.under location (version.name :: rest) = none) :
    let versionDir := FilePath.join dir version.name
    let keyPath := FilePath.join versionDir keyFile
    let certPath := FilePath.join versionDir certFile
    ∃ first second third fourth,
      (run (.makeDirectories versionDir) tree = (.ok (), first) ∧
        run (.write keyPath version.material.keyPem) first = (.ok (), second) ∧
        run (.makePrivate keyPath) second = (.ok (), third) ∧
        run (.write certPath version.material.certPem) third = (.ok (), fourth)) ∧
      made.Changes location
        (Function.update (made.under location) [version.name] (some .directory)) first ∧
      first.Changes location (Function.update (first.under location) [version.name, keyFile]
        (some (.file version.material.keyPem false))) second ∧
      second.Changes location (Function.update (second.under location) [version.name, keyFile]
        (some (.file version.material.keyPem true))) third ∧
      made.Changes location (withVersion version (made.under location)) fourth := by
  obtain ⟨first, hmakes, hfirst⟩ := h.join hname (.inl (hunused []))
  have hkey : first.entry? (location ++ [version.name] ++ [keyFile]) = none := by
    rw [hfirst, Function.update_of_ne (by simp), List.append_assoc]
    exact hunused [keyFile]
  obtain ⟨second, hwrite, hsecond⟩ :=
    run_write hmakes.opens isName_keyFile hkey version.material.keyPem
  have hopens := hmakes.opens.of_changes (changes_of_update (List.cons_ne_nil _ _) hsecond)
  obtain ⟨third, hchmod, hthird⟩ := run_makePrivate hopens isName_keyFile
    (hsecond ▸ Function.update_self ..)
  have hopens := hopens.of_changes (changes_of_update (List.cons_ne_nil _ _) hthird)
  have hcert : third.entry? (location ++ [version.name] ++ [certFile]) = none := by
    have hne : location ++ [version.name] ++ [certFile] ≠
        location ++ [version.name] ++ [keyFile] := by
      simp [certFile, keyFile]
    rw [hthird, Function.update_of_ne hne, hsecond, Function.update_of_ne hne, hfirst,
      Function.update_of_ne (by simp), List.append_assoc]
    exact hunused [certFile]
  obtain ⟨fourth, hwrite', hfourth⟩ :=
    run_write hopens isName_certFile hcert version.material.certPem
  rw [List.append_assoc] at hsecond hthird hfourth
  have hfirst := changes_of_update (List.cons_ne_nil _ _) hfirst
  have hsecond := changes_of_update (List.cons_ne_nil _ _) hsecond
  have hthird := changes_of_update (List.cons_ne_nil _ _) hthird
  have hfourth := changes_of_update (List.cons_ne_nil _ _) hfourth
  refine ⟨first, second, third, fourth, ⟨hmakes.run hname, hwrite, hchmod, hwrite'⟩, hfirst,
    hsecond, hthird, ?_⟩
  rw [hthird.inside, hsecond.inside, hfirst.inside] at hfourth
  exact hfirst.trans (hsecond.trans (hthird.trans hfourth))

theorem runs_writeVersion {version : StoredVersion} (h : tree.Makes dir location made)
    (hname : FilePath.IsName version.name)
    (hunused : ∀ rest, made.under location (version.name :: rest) = none) :
    ∃ after, (writeVersion (FilePath.join dir version.name) version.material).Runs tree () after ∧
      made.Changes location (withVersion version (made.under location)) after := by
  obtain ⟨first, second, third, fourth, ⟨hmake, hwrite, hchmod, hwrite'⟩, -, -, -, hfourth⟩ :=
    run_writeVersion h hname hunused
  refine ⟨fourth, ?_, hfourth⟩
  rw [writeVersion]
  apply Runs.bind (runs_call hmake _)
  apply Runs.bind (runs_call hwrite _)
  apply Runs.bind (runs_call hchmod _)
  exact runs_call hwrite' _

theorem runs_ensureReaderLink {file : String} (h : tree.Opens dir location)
    (hfile : FilePath.IsName file) :
    ∃ after, (ensureReaderLink dir file).Runs tree () after ∧
      tree.Changes location (withReaderEntry file (tree.under location)) after := by
  rw [withReaderEntry]
  rcases hentry : tree.under location [file] with _ | entry
  · obtain ⟨after, hlink, hafter⟩ := run_makeLink h hfile hentry (FilePath.join dataLink file)
    refine ⟨after, ?_, changes_of_update (List.cons_ne_nil _ _) hafter⟩
    rw [ensureReaderLink]
    apply Runs.bind (runs_attempt (run_probe_notFound (h.find_join_none hfile hentry false)))
    exact runs_call hlink _
  · refine ⟨tree, ?_, FileTree.changes_refl tree location⟩
    rw [ensureReaderLink]
    apply Runs.bind (runs_attempt (run_probe (h.find_join hfile hentry (by simp))))
    exact runs_pure () tree

theorem runs_ensureReaderLinks (h : tree.Opens dir location) :
    ∃ between after, (ensureReaderLink dir keyFile).Runs tree () between ∧
      (ensureReaderLink dir certFile).Runs between () after ∧
      tree.Changes location
        (withReaderEntry certFile (withReaderEntry keyFile (tree.under location))) after := by
  obtain ⟨between, hkey, hbetween⟩ := runs_ensureReaderLink h isName_keyFile
  obtain ⟨after, hcert, hafter⟩ :=
    runs_ensureReaderLink (h.of_changes hbetween) isName_certFile
  rw [hbetween.inside] at hafter
  exact ⟨between, after, hkey, hcert, hbetween.trans hafter⟩

variable {store : DirectoryStore} {id : WebhookIdentity} {current : Option StoredVersion}
  {bundle : Option Octets}

/-- What a tree has of an identity: nothing yet, not even its directory, or a directory of a
given layout. -/
def Shows (tree : FileTree) (dir : String) (location : Location) (current : Option StoredVersion)
    (bundle : Option Octets) : Prop :=
  tree.Lacks dir ∧ current = none ∧ bundle = none ∨
    tree.Opens dir location ∧ tree.under location = layout current bundle

/-- What reading the link to the version that is served gives. -/
def linkTo : Option StoredVersion → Except FileFault String
  | some version => .ok version.name
  | none => .error .notFound

theorem run_readLink_of_lacks (h : tree.Lacks dir) :
    run (.readLink (FilePath.join dir dataLink)) tree = (linkTo none, tree) :=
  run_readLink_notFound (h.find_join isName_dataLink false)

theorem run_readLink_of_opens (h : tree.Opens dir location)
    (hentry : tree.under location [dataLink] = current.map fun version => .link version.name) :
    run (.readLink (FilePath.join dir dataLink)) tree = (linkTo current, tree) := by
  rcases current with _ | version
  · exact run_readLink_notFound (h.find_join_none isName_dataLink hentry false)
  · exact run_readLink (h.find_join isName_dataLink hentry (by simp))

theorem Shows.run_readLink (h : Shows tree dir location current bundle) :
    run (.readLink (FilePath.join dir dataLink)) tree = (linkTo current, tree) := by
  rcases h with ⟨hlacks, rfl, rfl⟩ | ⟨hopens, hlayout⟩
  · exact run_readLink_of_lacks hlacks
  · apply run_readLink_of_opens hopens
    rw [hlayout, layout_dataLink]

theorem runs_getBundle (h : Shows tree (store.identityDir id) location current bundle) :
    (store.getBundle id).Runs tree bundle tree := by
  rcases h with ⟨hlacks, rfl, rfl⟩ | ⟨hopens, hlayout⟩
  · exact runs_readOptional_none (run_read_notFound (hlacks.find_join isName_bundleFile true)) _
  · have hentry := layout_bundleFile current bundle
    rw [← hlayout] at hentry
    rcases bundle with _ | bundle
    · exact runs_readOptional_none
        (run_read_notFound (hopens.find_join_none isName_bundleFile hentry true)) _
    · exact runs_readOptional
        (run_read (hopens.find_join isName_bundleFile hentry (by simp))) _

theorem runs_get_of_opens (h : tree.Opens (store.identityDir id) location)
    (hlink : tree.under location [dataLink] = current.map fun version => .link version.name)
    (hcurrent : ∀ version ∈ current, IsVersionName version.name ∧ ∀ rest,
      tree.under location (version.name :: rest) =
        layout (some version) bundle (version.name :: rest)) :
    (store.get id).Runs tree (current.map StoredVersion.material) tree := by
  rw [DirectoryStore.get]
  apply Runs.bind (runs_attempt (run_readLink_of_opens h hlink))
  rcases current with _ | version
  · exact runs_pure none tree
  · obtain ⟨hversion, hentries⟩ := hcurrent version rfl
    have hdir := h.join hversion.isName ((hentries []).trans (layout_version hversion))
    have hkey : tree.entry? (location ++ [version.name] ++ [keyFile]) =
        some (.file version.material.keyPem true) := by
      rw [List.append_assoc, ← layout_version_keyFile version bundle, ← hentries]
      rfl
    have hcert : tree.entry? (location ++ [version.name] ++ [certFile]) =
        some (.file version.material.certPem false) := by
      rw [List.append_assoc, ← layout_version_certFile version bundle, ← hentries]
      rfl
    apply Runs.bind
      (runs_readOptional (run_read (hdir.find_join isName_keyFile hkey (by simp))) _)
    apply Runs.bind
      (runs_readOptional (run_read (hdir.find_join isName_certFile hcert (by simp))) _)
    exact runs_pure (some version.material) tree

theorem runs_get_of_lacks (h : tree.Lacks (store.identityDir id)) :
    (store.get id).Runs tree none tree := by
  rw [DirectoryStore.get]
  apply Runs.bind (runs_attempt (run_readLink_of_lacks h))
  exact runs_pure none tree

theorem runs_get (h : Shows tree (store.identityDir id) location current bundle)
    (hcurrent : ∀ version ∈ current, IsVersionName version.name) :
    (store.get id).Runs tree (current.map StoredVersion.material) tree := by
  rcases h with ⟨hlacks, rfl, -⟩ | ⟨hopens, hlayout⟩
  · exact runs_get_of_lacks hlacks
  · refine runs_get_of_opens hopens ?_ fun version hmem =>
      ⟨hcurrent version hmem, fun _ => hmem ▸ congrFun hlayout _⟩
    rw [hlayout, layout_dataLink]

theorem run_rename_draft {draft target : String} {entry : FileEntry} {drafted : FileTree}
    (h : tree.Opens dir location) (hdraft : FilePath.IsName draft)
    (htarget : FilePath.IsName target) (hne : draft ≠ target) (hfile : entry ≠ .directory)
    (hunused : ∀ rest, tree.under location (draft :: rest) = none)
    (hplace : tree.under location [target] ≠ some .directory)
    (hdrafted : drafted.entry? =
      Function.update tree.entry? (location ++ [draft]) (some entry)) :
    ∃ after, run (.rename (FilePath.join dir draft) (FilePath.join dir target)) drafted =
        (.ok (), after) ∧
      tree.Changes location
        (Function.update (Function.update (Function.update (tree.under location)
          [draft] (some entry)) [draft] none) [target] (some entry)) after := by
  have hchanges := changes_of_update (List.cons_ne_nil _ _) hdrafted
  have hentry : drafted.entry? (location ++ [draft]) = some entry := by
    rw [hdrafted, Function.update_self]
  have hplace' : drafted.entry? (location ++ [target]) ≠ some .directory := by
    rw [hdrafted, Function.update_of_ne (by simpa using hne.symm)]
    exact hplace
  have hempty : drafted.hasEntries (location ++ [draft]) = false := by
    rw [FileTree.hasEntries_eq_false_iff]
    intro rest hrest
    rw [hdrafted, Function.update_of_ne (by simpa using hrest), List.append_assoc]
    exact hunused rest
  obtain ⟨after, hrename, hafter⟩ := run_rename (h.of_changes hchanges) hdraft htarget hne hentry
    hfile hplace' hempty
  refine ⟨after, hrename, ?_, ?_⟩
  · change after.entry? ∘ (location ++ ·) = _
    rw [hafter, FileTree.under_update, FileTree.under_update, ← hchanges.inside]
    rfl
  · intro key hkey
    rw [hafter,
      Function.update_of_ne (FileTree.ne_append_of_not_isBelow hkey (List.cons_ne_nil _ _)),
      Function.update_of_ne (FileTree.ne_append_of_not_isBelow hkey (List.cons_ne_nil _ _)),
      hchanges.outside key hkey]

theorem run_switch (version : String) (h : tree.Opens dir location)
    (hunused : ∀ rest, tree.under location (dataLinkDraft :: rest) = none)
    (hplace : tree.under location [dataLink] ≠ some .directory) :
    ∃ drafted after,
      run (.makeLink version (FilePath.join dir dataLinkDraft)) tree = (.ok (), drafted) ∧
      run (.rename (FilePath.join dir dataLinkDraft) (FilePath.join dir dataLink)) drafted =
        (.ok (), after) ∧
      tree.Changes location (withDataLink version (tree.under location)) after := by
  obtain ⟨drafted, hlink, hdrafted⟩ := run_makeLink h isName_dataLinkDraft (hunused []) version
  obtain ⟨after, hrename, hafter⟩ := run_rename_draft h isName_dataLinkDraft isName_dataLink
    (by decide) (by simp) hunused hplace hdrafted
  exact ⟨drafted, after, hlink, hrename, hafter⟩

theorem runs_putBundle (h : tree.Makes (store.identityDir id) location made)
    (hmade : made.under location = layout current bundle)
    (hcurrent : ∀ version ∈ current, IsVersionName version.name) (next : Octets) :
    ∃ after, (store.putBundle id next).Runs tree () after ∧
      made.Changes location (layout current (some next)) after := by
  have hunused : ∀ rest, made.under location (bundleDraft :: rest) = none := by
    intro rest
    rw [hmade, layout_bundleDraft hcurrent]
  have hplace : made.under location [bundleFile] ≠ some .directory := by
    rw [hmade, layout_bundleFile]
    rcases bundle with _ | bundle
    · simp
    · simp
  obtain ⟨drafted, hwrite, hdrafted⟩ := run_write h.opens isName_bundleDraft (hunused []) next
  obtain ⟨after, hrename, hafter⟩ := run_rename_draft h.opens isName_bundleDraft
    isName_bundleFile (by decide) (by simp) hunused hplace hdrafted
  refine ⟨after, ?_, ?_⟩
  · rw [putBundle]
    apply Runs.bind (runs_call (FileTree.Makes.run (isName_kind id.kind) h) _)
    apply Runs.bind (runs_call hwrite _)
    exact runs_call hrename _
  · rw [← layout_putBundle hcurrent next, ← hmade]
    exact hafter

theorem run_removeVersion {old : StoredVersion} (h : tree.Opens dir location)
    (hname : FilePath.IsName old.name)
    (hstands : tree.under location [old.name] = some .directory) :
    ∃ after, run (.removeTree (FilePath.join dir old.name)) tree = (.ok (), after) ∧
      tree.Changes location (withoutVersion (some old) (tree.under location)) after := by
  obtain ⟨after, hremove, hafter⟩ := run_removeTree h hname hstands
  refine ⟨after, hremove, ?_, ?_⟩
  · funext rest
    rw [FileTree.under, hafter]
    simp only [withoutVersion, List.prefix_append_right_inj, FileTree.under]
  · intro key hkey
    rw [hafter]
    apply if_neg
    rintro ⟨rest, rfl⟩
    rw [List.append_assoc] at hkey
    exact FileTree.ne_append_of_not_isBelow hkey (List.cons_ne_nil _ _) rfl

theorem runs_removeVersion {next : String} (h : tree.Opens dir location)
    (hstands : ∀ old ∈ current, FilePath.IsName old.name ∧ old.name ≠ next ∧
      tree.under location [old.name] = some .directory) :
    ∃ after, (match linkTo current with
      | .ok old =>
        if old ≠ next then discard (FileWork.attempt (.removeTree (FilePath.join dir old)))
        else pure ()
      | .error _ => pure () : FileWork Unit).Runs tree () after ∧
      tree.Changes location (withoutVersion current (tree.under location)) after := by
  rcases current with _ | old
  · exact ⟨tree, runs_pure () tree, FileTree.changes_refl tree location⟩
  · obtain ⟨hname, hne, hdirectory⟩ := hstands old rfl
    obtain ⟨after, hremove, hafter⟩ := run_removeVersion h hname hdirectory
    refine ⟨after, ?_, hafter⟩
    simp only [linkTo, if_pos hne]
    exact FileWork.runs_discard (runs_attempt hremove)

theorem runs_removeDraft (h : tree.Opens dir location)
    (hdraft : tree.under location [dataLinkDraft] ≠ some .directory) :
    ∃ answer cleared,
      (FileWork.attempt (.removeFile (FilePath.join dir dataLinkDraft))).Runs tree answer cleared ∧
      (answer = .ok () ∨ answer = .error .notFound) ∧
      tree.Changes location (Function.update (tree.under location) [dataLinkDraft] none)
        cleared := by
  rcases hentry : tree.under location [dataLinkDraft] with _ | entry
  · refine ⟨_, tree, runs_attempt (run_removeFile_notFound
      (h.find_join_none isName_dataLinkDraft hentry false)), .inr rfl, ?_⟩
    rw [← hentry, Function.update_eq_self]
    exact FileTree.changes_refl tree location
  · have hne : entry ≠ .directory := by
      rintro rfl
      exact hdraft hentry
    obtain ⟨cleared, hremove, hcleared⟩ := run_removeFile h isName_dataLinkDraft hentry hne
    exact ⟨_, cleared, runs_attempt hremove, .inl rfl,
      changes_of_update (List.cons_ne_nil _ _) hcleared⟩

/-- The link is replaced and the links for readers are there, whatever comes next. -/
theorem runs_switch {version : String} {next : FileWork Unit} (h : tree.Opens dir location)
    (hdraft : tree.under location [dataLinkDraft] ≠ some .directory)
    (hends : ∀ rest, rest ≠ [] → tree.under location (dataLinkDraft :: rest) = none)
    (hplace : tree.under location [dataLink] ≠ some .directory) :
    let draft := FilePath.join dir dataLinkDraft
    let link := FilePath.join dir dataLink
    ∃ switched, tree.Changes location (withReaderEntry certFile (withReaderEntry keyFile
        (withDataLink version (tree.under location)))) switched ∧
      ∀ after, next.Runs switched () after →
        (do
          match ← FileWork.attempt (.removeFile draft) with
          | .ok () | .error .notFound => pure ()
          | .error _ => throw (.storeIo (.file .remove draft))
          storeCall .link draft (.makeLink version draft)
          storeCall .rename draft (.rename draft link)
          ensureReaderLink dir keyFile
          ensureReaderLink dir certFile
          next : FileWork Unit).Runs tree () after := by
  obtain ⟨answer, cleared, hremove, hanswer, hcleared⟩ := runs_removeDraft h hdraft
  have hopens := h.of_changes hcleared
  obtain ⟨drafted, second, hlink, hrename, hsecond⟩ := run_switch version hopens (by
      intro rest
      rw [hcleared.inside]
      rcases eq_or_ne rest [] with rfl | hrest
      · rw [Function.update_self]
      · rw [Function.update_of_ne (by simpa using hrest), hends rest hrest])
    (by
      rw [hcleared.inside, Function.update_of_ne (by decide)]
      exact hplace)
  obtain ⟨between, third, hkey, hcert, hthird⟩ :=
    runs_ensureReaderLinks (hopens.of_changes hsecond)
  rw [hsecond.inside, hcleared.inside, withDataLink_update_draft] at hthird
  refine ⟨third, (hcleared.trans hsecond).trans hthird, ?_⟩
  intro after hnext
  apply Runs.bind hremove
  rcases hanswer with rfl | rfl
  all_goals
    apply Runs.bind (runs_call hlink _)
    apply Runs.bind (runs_call hrename _)
    apply Runs.bind hkey
    apply Runs.bind hcert
    exact hnext

theorem runs_switch_of_layout {version : String} {next : FileWork Unit}
    (h : tree.Opens dir location) (hcurrent : ∀ old ∈ current, IsVersionName old.name)
    (hfixed : ∀ name ∈ fixedNames, ∀ rest,
      tree.under location (name :: rest) = layout current bundle (name :: rest)) :
    let draft := FilePath.join dir dataLinkDraft
    let link := FilePath.join dir dataLink
    ∃ switched, tree.Changes location (withReaderLink certFile (withReaderLink keyFile
        (withDataLink version (tree.under location)))) switched ∧
      ∀ after, next.Runs switched () after →
        (do
          match ← FileWork.attempt (.removeFile draft) with
          | .ok () | .error .notFound => pure ()
          | .error _ => throw (.storeIo (.file .remove draft))
          storeCall .link draft (.makeLink version draft)
          storeCall .rename draft (.rename draft link)
          ensureReaderLink dir keyFile
          ensureReaderLink dir certFile
          next : FileWork Unit).Runs tree () after := by
  have hunused : ∀ rest, tree.under location (dataLinkDraft :: rest) = none := by
    intro rest
    rw [hfixed dataLinkDraft (by decide), layout_dataLinkDraft hcurrent]
  have hreader : ∀ file ∈ [keyFile, certFile],
      withDataLink version (tree.under location) [file] = none ∨
        withDataLink version (tree.under location) [file] =
          some (.link (FilePath.join dataLink file)) := by
    intro file hfile
    have hsubset : [keyFile, certFile] ⊆ fixedNames := by decide
    rw [withDataLink_of_reader hfile, hfixed file (hsubset hfile)]
    exact layout_readerLink_cases hfile current bundle
  obtain ⟨switched, hswitched, hrest⟩ := runs_switch h (by simp [hunused])
    (fun rest _ => hunused rest) (by
      rw [hfixed dataLink (by decide)]
      exact layout_dataLink_ne_directory current bundle)
  refine ⟨switched, ?_, hrest⟩
  rw [withReaderEntry_eq (hreader keyFile (by decide)), withReaderEntry_eq (by
    rw [withReaderLink_of_ne (by decide)]
    exact hreader certFile (by decide))] at hswitched
  exact hswitched

theorem runs_put {version : StoredVersion} (h : tree.Makes (store.identityDir id) location made)
    (hmade : made.under location = layout current bundle)
    (hshows : Shows tree (store.identityDir id) location current bundle)
    (hversion : IsVersionName version.name)
    (hcurrent : ∀ old ∈ current, IsVersionName old.name ∧ old.name ≠ version.name) :
    ∃ after, (store.put id version.material version.name).Runs tree () after ∧
      made.Changes location (layout (some version) bundle) after := by
  obtain ⟨first, hwrite, hfirst⟩ := runs_writeVersion h hversion.isName (by
    rw [hmade]
    exact layout_of_isVersionName hversion fun old hmem => (hcurrent old hmem).2)
  have hopens := h.opens.of_changes hfirst
  obtain ⟨switched, hswitched, hrest⟩ := runs_switch_of_layout hopens
    (fun old hmem => (hcurrent old hmem).1) (by
      intro name hmem rest
      rw [hfirst.inside, withVersion_of_ne (hversion.ne_of_mem hmem).symm, hmade])
  have hinside : switched.under location = withReaderLink certFile (withReaderLink keyFile
      (withDataLink version.name (withVersion version (layout current bundle)))) := by
    rw [hswitched.inside, hfirst.inside, hmade]
  obtain ⟨after, hremove, hafter⟩ : ∃ after, _ ∧ switched.Changes location
      (withoutVersion current (switched.under location)) after := by
    apply runs_removeVersion (hopens.of_changes hswitched)
    intro old hmem
    obtain ⟨hold, hother⟩ := hcurrent old hmem
    refine ⟨hold.isName, hother, ?_⟩
    rw [hinside, withReaderLink_of_ne (hold.ne_of_mem (by decide)),
      withReaderLink_of_ne (hold.ne_of_mem (by decide)),
      withDataLink_of_ne (hold.ne_of_mem (by decide)) (hold.ne_of_mem (by decide)),
      withVersion_of_ne hother, hmem, layout_version hold]
  refine ⟨after, ?_, ?_⟩
  · rw [put]
    apply Runs.bind (runs_attempt hshows.run_readLink)
    apply Runs.bind hwrite
    apply hrest
    rcases hbefore : linkTo current with fault | old
    · rw [hbefore] at hremove
      exact hremove
    · rw [hbefore] at hremove
      exact hremove
  · rw [hinside, layout_put hversion hcurrent] at hafter
    exact (hfirst.trans hswitched).trans hafter

theorem runOn_put_of_made {name : String}
    (h : run (.makeDirectories (FilePath.join (store.identityDir id) name)) tree = (.ok (), made))
    (hagain : run (.makeDirectories (FilePath.join (store.identityDir id) name)) made =
      (.ok (), made))
    (hread : made.readLink (FilePath.join (store.identityDir id) dataLink) =
      tree.readLink (FilePath.join (store.identityDir id) dataLink)) (material : TlsMaterial) :
    FileProgram.runOn (store.put id material name).run tree =
      FileProgram.runOn (store.put id material name).run made := by
  have hlink : ∀ path tree, run (.readLink path) tree = (tree.readLink path, tree) :=
    fun _ _ => rfl
  have hwrite : FileProgram.runOn
        (writeVersion (FilePath.join (store.identityDir id) name) material).run tree =
      FileProgram.runOn
        (writeVersion (FilePath.join (store.identityDir id) name) material).run made := by
    rw [writeVersion, storeCall, (runs_call h _).runOn_bind, (runs_call hagain _).runOn_bind]
  rw [put, (runs_attempt (hlink _ tree)).runOn_bind, (runs_attempt (hlink _ made)).runOn_bind,
    hread, ExceptT.run_bind, FileProgram.runOn_bind, FileProgram.runOn_bind, hwrite]

theorem runOn_put_of_error {name : String} {fault : FileFault}
    (h : run (.makeDirectories (FilePath.join (store.identityDir id) name)) tree =
      (.error fault, made)) (material : TlsMaterial) :
    ∃ failure, FileProgram.runOn (store.put id material name).run tree =
      (.error failure, made) := by
  have hlink : ∀ path, run (.readLink path) tree = (tree.readLink path, tree) := fun _ => rfl
  rw [put, (runs_attempt (hlink _)).runOn_bind, writeVersion]
  exact ⟨_, FileWork.runOn_bind_of_error
    (FileWork.runOn_bind_of_error (FileWork.runOn_call_of_error h _))⟩

theorem runOn_putBundle_of_error {fault : FileFault}
    (h : run (.makeDirectories (store.identityDir id)) tree = (.error fault, made))
    (bundle : Octets) :
    ∃ failure, FileProgram.runOn (store.putBundle id bundle).run tree =
      (.error failure, made) := by
  rw [putBundle]
  exact ⟨_, FileWork.runOn_bind_of_error (FileWork.runOn_call_of_error h _)⟩

end DirectoryStore

end CertRotation
