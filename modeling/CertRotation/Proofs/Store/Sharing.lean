import CertRotation.Proofs.Store.Refinement

namespace CertRotation

namespace DirectoryStore

open FileTree (changes_of_update)
open FileWork (Runs runs_call runs_attempt runs_pure runOn_bind_of_error runOn_call_of_error)
open FileOperation
open FileProgram (runOn)

variable {tree : FileTree} {dir root : String} {location place : Location}
  {held : Collaborators} {unused : List Octets} {id : WebhookIdentity} {store : DirectoryStore}
  {version : StoredVersion} {old : TlsMaterial} {bundle : Option Octets}

/-! A version that takes the place of one with the same name. -/

theorem layout_rewrite (version : StoredVersion) (old : TlsMaterial) (bundle : Option Octets) :
    Function.update (Function.update (Function.update
        (layout (some ⟨version.name, old⟩) bundle)
        [version.name, keyFile] (some (.file version.material.keyPem true)))
        [version.name, keyFile] (some (.file version.material.keyPem true)))
        [version.name, certFile] (some (.file version.material.certPem false)) =
      layout (some version) bundle := by
  have hne : certFile ≠ keyFile := by decide
  funext rest
  rw [Function.update_idem, Function.update_apply, Function.update_apply]
  rcases rest with _ | ⟨first, _ | ⟨second, _ | ⟨third, rest⟩⟩⟩
  · simp [layout]
  · simp [layout]
  · by_cases hfirst : first = version.name
    · by_cases hkey : second = keyFile
      · simp [layout, hfirst, hkey, hne.symm]
      · simp only [layout, hfirst, hkey, List.cons.injEq, and_true, true_and, Option.bind_some]
        grind
    · simp [layout, hfirst]
  · simp [layout]

theorem layout_switch (hversion : IsVersionName version.name) (bundle : Option Octets) :
    withReaderLink certFile (withReaderLink keyFile
        (withDataLink version.name (layout (some version) bundle))) =
      layout (some version) bundle := by
  have hdraft : Function.update (layout (some version) bundle) [dataLinkDraft] none =
      layout (some version) bundle := by
    rw [Function.update_eq_self_iff, layout_dataLinkDraft]
    rintro _ ⟨⟩
    exact hversion
  have hlinks : ∀ file ∈ [keyFile, certFile],
      withReaderLink file (layout (some version) bundle) = layout (some version) bundle := by
    intro file hfile
    rw [withReaderLink, Function.update_eq_self_iff, layout_readerLink hfile]
    rfl
  have hdata : Function.update (layout (some version) bundle) [dataLink]
      (some (.link version.name)) = layout (some version) bundle := by
    rw [Function.update_eq_self_iff, layout_dataLink]
    rfl
  rw [withDataLink, Function.update_idem, hdraft, hdata, hlinks keyFile (by decide),
    hlinks certFile (by decide)]

theorem runs_writeVersion_again (h : tree.Opens dir location)
    (hversion : IsVersionName version.name)
    (hlayout : tree.under location = layout (some ⟨version.name, old⟩) bundle) :
    ∃ after, (writeVersion (FilePath.join dir version.name) version.material).Runs tree () after ∧
      tree.Changes location (layout (some version) bundle) after := by
  have hsame : ∀ rest, tree.entry? (location ++ rest) =
      layout (some ⟨version.name, old⟩) bundle rest := congrFun hlayout
  have hstands := (hsame [version.name]).trans (layout_version hversion)
  obtain ⟨first, hmakes, hfirst⟩ := h.makes.join hversion.isName (.inr hstands)
  rw [← hstands, Function.update_eq_self] at hfirst
  have hkey : first.entry? (location ++ [version.name] ++ [keyFile]) =
      some (.file old.keyPem true) := by
    rw [hfirst, List.append_assoc, hsame]
    exact layout_version_keyFile ⟨version.name, old⟩ bundle
  obtain ⟨second, hwrite, hsecond⟩ :=
    run_write_file hmakes.opens isName_keyFile hkey version.material.keyPem
  have hopens := hmakes.opens.of_changes (changes_of_update (List.cons_ne_nil _ _) hsecond)
  obtain ⟨third, hchmod, hthird⟩ := run_makePrivate hopens isName_keyFile
    (hsecond ▸ Function.update_self ..)
  have hopens := hopens.of_changes (changes_of_update (List.cons_ne_nil _ _) hthird)
  have hcert : third.entry? (location ++ [version.name] ++ [certFile]) =
      some (.file old.certPem false) := by
    have hne : location ++ [version.name] ++ [certFile] ≠
        location ++ [version.name] ++ [keyFile] := by
      simp [certFile, keyFile]
    rw [hthird, Function.update_of_ne hne, hsecond, Function.update_of_ne hne, hfirst,
      List.append_assoc, hsame]
    exact layout_version_certFile ⟨version.name, old⟩ bundle
  obtain ⟨fourth, hwrite', hfourth⟩ :=
    run_write_file hopens isName_certFile hcert version.material.certPem
  refine ⟨fourth, ?_, ?_⟩
  · rw [writeVersion]
    apply Runs.bind (runs_call (hmakes.run hversion.isName) _)
    apply Runs.bind (runs_call hwrite _)
    apply Runs.bind (runs_call hchmod _)
    exact runs_call hwrite' _
  · rw [hfirst, List.append_assoc] at hsecond
    rw [List.append_assoc] at hthird hfourth
    have hsecond := changes_of_update (List.cons_ne_nil _ _) hsecond
    have hthird := changes_of_update (List.cons_ne_nil _ _) hthird
    have hfourth := changes_of_update (List.cons_ne_nil _ _) hfourth
    rw [hthird.inside, hsecond.inside, hlayout] at hfourth
    rw [← layout_rewrite version old bundle]
    exact hsecond.trans (hthird.trans hfourth)

theorem runs_put_again (h : tree.Opens (store.identityDir id) location)
    (hversion : IsVersionName version.name)
    (hlayout : tree.under location = layout (some ⟨version.name, old⟩) bundle) :
    ∃ after, (store.put id version.material version.name).Runs tree () after ∧
      tree.Changes location (layout (some version) bundle) after := by
  have hnames : ∀ written ∈ some version, IsVersionName written.name := by
    rintro _ ⟨⟩
    exact hversion
  have hlink : run (.readLink (FilePath.join (store.identityDir id) dataLink)) tree =
      (linkTo (some ⟨version.name, old⟩), tree) := by
    apply run_readLink_of_opens h
    rw [hlayout, layout_dataLink]
  obtain ⟨first, hwrite, hfirst⟩ := runs_writeVersion_again h hversion hlayout
  obtain ⟨switched, hswitched, hrest⟩ := runs_switch_of_layout (h.of_changes hfirst) hnames
    fun _ _ _ => congrFun hfirst.inside _
  rw [hfirst.inside, layout_switch hversion] at hswitched
  refine ⟨switched, ?_, hfirst.trans hswitched⟩
  rw [put]
  apply Runs.bind (runs_attempt hlink)
  apply Runs.bind hwrite
  apply hrest
  simp only [linkTo, ne_eq, not_true_eq_false, if_false]
  exact runs_pure () switched

theorem Represents.runs_put {versions : WebhookIdentity → Option StoredVersion}
    {bundles : WebhookIdentity → Option Octets}
    (h : Represents tree root place versions bundles)
    (hnames : ∀ old ∈ versions id, IsVersionName old.name) (hid : id.IsStorable)
    (hversion : IsVersionName version.name) :
    ∃ after, (DirectoryStore.put ⟨root⟩ id version.material version.name).Runs tree () after ∧
      Represents after root place (Function.update versions id (some version)) bundles := by
  obtain ⟨made, hmakes, hmade, hnext⟩ := h.makes hid
  have hshows := h.shows hid
  obtain ⟨after, hruns, hchanges⟩ : ∃ after,
      (DirectoryStore.put ⟨root⟩ id version.material version.name).Runs tree () after ∧
        made.Changes (place ++ folder id) (layout (some version) (bundles id)) after := by
    -- With the same name the links stay and nothing is removed; otherwise the old version goes.
    by_cases hagain : ∃ old ∈ versions id, old.name = version.name
    · obtain ⟨⟨_, old⟩, hold, rfl⟩ := hagain
      rw [hold] at hshows
      obtain ⟨-, hnone, -⟩ | ⟨hopens, hlayout⟩ := hshows
      · cases hnone
      · rw [hmakes.lacks_or.resolve_left hopens.not_lacks]
        exact runs_put_again hopens hversion hlayout
    · refine DirectoryStore.runs_put hmakes hmade hshows hversion fun old hold => ?_
      exact ⟨hnames old hold, fun heq => hagain ⟨old, hold, heq⟩⟩
  have hafter := hnext hchanges
  rw [Function.update_eq_self] at hafter
  exact ⟨after, hruns, hafter⟩

theorem Stores.runs_put_of_uuid {random : Octets} (h : Stores tree root place held [])
    (hid : id.IsStorable) (huuid : random.length = 16) (material : TlsMaterial) :
    ∃ after, (DirectoryStore.put ⟨root⟩ id material (versionName random)).Runs tree () after ∧
      Stores after root place { held with materials := held.materials.insert id material }
        [] := by
  obtain ⟨versions, hrepresents, hmaterials, hnames⟩ := h
  have hversion := isVersionName_versionName huuid
  obtain ⟨after, hruns, hafter⟩ :=
    @Represents.runs_put _ _ _ _ ⟨versionName random, material⟩ versions _ hrepresents
      (fun old hold => (hnames id old hold).1) hid hversion
  exact ⟨after, hruns, stores_of_represents hafter hmaterials hnames hversion List.not_mem_nil⟩

/-! Identities with names that are too long. -/

theorem get_onlyAsks (store : DirectoryStore) (id : WebhookIdentity) :
    (store.get id).run.OnlyAsks FileOperation.IsRead := by
  rw [DirectoryStore.get]
  apply (FileWork.onlyAsks_attempt trivial).run_bind
  rintro (fault | target)
  · cases fault <;> exact Program.onlyAsks_pure _
  · apply (FileWork.onlyAsks_readOptional trivial _).run_bind
    intro key
    apply (FileWork.onlyAsks_readOptional trivial _).run_bind
    intro cert
    cases key <;> cases cert <;> exact Program.onlyAsks_pure _

theorem getBundle_onlyAsks (store : DirectoryStore) (id : WebhookIdentity) :
    (store.getBundle id).run.OnlyAsks FileOperation.IsRead :=
  FileWork.onlyAsks_readOptional trivial _

theorem runOn_put_of_refuses {made : FileTree} {name : String}
    (h : tree.Refuses (store.identityDir id) made) (hname : IsVersionName name)
    (material : TlsMaterial) :
    ∃ failure, runOn (store.put id material name).run tree = (.error failure, made) :=
  runOn_put_of_error ((h.join hname.isName.isPart).run hname.isName.isPart) material

theorem runOn_putBundle_of_refuses {made : FileTree}
    (h : tree.Refuses (store.identityDir id) made) (bundle : Octets) :
    ∃ failure, runOn (store.putBundle id bundle).run tree = (.error failure, made) :=
  runOn_putBundle_of_error (h.run (isName_kind id.kind).isPart) bundle

theorem Stores.of_refuses (h : Stores tree root place held unused) (haccepted : id.check = .ok ())
    (hlong : ¬id.IsStorable) :
    ∃ made, tree.Refuses (DirectoryStore.identityDir ⟨root⟩ id) made ∧
      Stores made root place held unused := by
  obtain ⟨versions, hrepresents, hmaterials, hnames⟩ := h
  obtain ⟨made, hrefuses, hmade⟩ := hrepresents.refuses haccepted hlong
  exact ⟨made, hrefuses, versions, hmade, hmaterials, hnames⟩

theorem run_readLink_of_fails {fault : FileFault} (h : tree.Fails dir fault) :
    run (.readLink (FilePath.join dir dataLink)) tree = (.error fault, tree) := by
  have hlocate := (h.join isName_dataLink.isPart).locate_join isName_dataLink.isPart false
  rw [run, FileTree.readLink, FileTree.find, hlocate]
  rfl

theorem runs_get_of_fails (h : tree.Fails (store.identityDir id) .notFound) :
    (store.get id).Runs tree none tree := by
  rw [DirectoryStore.get]
  exact (runs_attempt (run_readLink_of_fails h)).bind (runs_pure none tree)

theorem runOn_get_of_fails (h : tree.Fails (store.identityDir id) .nameTooLong) :
    runOn (store.get id).run tree = (.error (.storeIo (.file .readLink
      (FilePath.join (store.identityDir id) dataLink))), tree) := by
  rw [DirectoryStore.get]
  exact (runs_attempt (run_readLink_of_fails h)).runOn_bind

theorem fails_of_lacks (h : tree.Lacks store.root) (haccepted : id.check = .ok ()) :
    tree.Fails (store.identityDir id) .notFound := by
  obtain ⟨_, hname, hspace⟩ := bind_eq_ok_iff.mp haccepted
  exact ((h.fails_join (isPart_of_check hspace)).join (isPart_of_check hname)).join
    (isName_kind id.kind).isPart

/-- Where another identity of the same space has material, a name that is too long does not read as
one that is missing. -/
theorem Stores.fails_of_neighbour {neighbour : WebhookIdentity} {material : TlsMaterial}
    (h : Stores tree root place held unused) (hneighbour : neighbour.IsStorable)
    (hmaterial : held.materials.get? neighbour = some material) (haccepted : id.check = .ok ())
    (hspace : id.space = neighbour.space)
    (hlong : FileTree.maxNameOctets < id.name.utf8ByteSize) :
    tree.Fails (DirectoryStore.identityDir ⟨root⟩ id) .nameTooLong := by
  obtain ⟨versions, ⟨made, hmakes, hholds, hcases⟩, hmaterials, -⟩ := h
  have hversion : versions neighbour ≠ none := by
    intro hnone
    rw [hmaterials, hnone] at hmaterial
    cases hmaterial
  -- Material of a neighbour is found below the root, so the root has been made.
  obtain rfl := hcases.resolve_right fun hnone => hversion (hnone neighbour).1
  have hentry : made.entry? (place ++ [id.space]) = some .directory := by
    rw [hspace]
    exact (hholds.above hneighbour _ (by simp [folders])).resolve_left fun hnone =>
      hversion (hholds.stands hneighbour _ (by simp [folders]) hnone).1
  have hopens := hmakes.opens.join (hspace ▸ isName_space hneighbour) hentry
  obtain ⟨_, hname, -⟩ := bind_eq_ok_iff.mp haccepted
  exact (hopens.fails_join (isPart_of_check hname) hlong).join (isName_kind id.kind).isPart

end DirectoryStore

end CertRotation
