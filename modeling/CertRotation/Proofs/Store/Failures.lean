import CertRotation.Proofs.Store.Visibility

namespace CertRotation

namespace DirectoryStore

open FileProgram (runOn)
open FileWork (Alike alike_attempt alike_pure alike_readOptional alike_throw runs_attempt runs_call)
open FileOperation (run settle)

variable {tree made after : FileTree} {store : DirectoryStore} {id : WebhookIdentity}
  {dir name : String} {location : Location} {version : StoredVersion} {bundle : Octets}
  {failure : Failure}

theorem agreesBut_of_changes (hunused : tree.IsUnused version.name)
    (hafter : tree.Changes location (withVersion version (tree.under location)) after) :
    tree.AgreesBut version.name after := by
  refine ⟨hunused, ?_⟩
  intro key hkey
  by_cases hbelow : FileTree.isBelow key location = true
  · obtain ⟨rest, hrest, rfl⟩ := FileTree.isBelow_iff.mp hbelow
    obtain ⟨first, rest, rfl⟩ := List.exists_cons_of_ne_nil hrest
    have hne : first ≠ version.name := by
      rintro rfl
      exact hkey (List.mem_append_right location List.mem_cons_self)
    exact (congrFun hafter.inside (first :: rest)).trans (withVersion_of_ne hne _ rest)
  · exact hafter.outside key (Bool.eq_false_iff.mpr hbelow)

theorem alike_get (h : tree.AgreesBut name after) (hname : IsVersionName name)
    (hdir : name ∉ FilePath.names (store.identityDir id)) : (store.get id).Alike tree after := by
  have hpart := hname.isName.isPart
  have hfile : ∀ {directory file : String}, name ∉ FilePath.names directory →
      file ∈ fixedNames → name ∉ FilePath.names (FilePath.join directory file) := by
    intro directory file hdirectory hmem
    rw [FilePath.names_join directory (isName_of_mem_fixedNames hmem).isPart, List.mem_append,
      List.mem_singleton, not_or]
    exact ⟨hdirectory, hname.ne_of_mem hmem⟩
  have hlink := h.readLink_eq hpart (hfile hdir (by decide : dataLink ∈ fixedNames))
  have hrun : run (.readLink (FilePath.join (store.identityDir id) dataLink)) after =
      (tree.readLink (FilePath.join (store.identityDir id) dataLink), after) := by
    rw [← hlink]
    rfl
  rw [get]
  apply (alike_attempt rfl hrun).bind
  intro answer hanswer
  rcases answer with fault | target
  · cases fault with
    | notFound => exact alike_pure none
    | _ => exact alike_throw _
  · have htarget : tree.readLink (FilePath.join (store.identityDir id) dataLink) = .ok target :=
      Except.ok.inj (congrArg Prod.fst hanswer)
    have hversion : name ∉ FilePath.names (FilePath.join (store.identityDir id) target) := fun hmem =>
      (FilePath.mem_names_join hmem).elim hdir (h.unused.notMem_names htarget)
    apply (alike_readOptional (h.read_eq hpart (hfile hversion (by decide))) _).bind
    intro key _
    apply (alike_readOptional (h.read_eq hpart (hfile hversion (by decide))) _).bind
    intro cert _
    rcases key with _ | key
    · exact alike_pure none
    rcases cert with _ | cert
    · exact alike_pure none
    · exact alike_pure _

theorem runOn_get_of_directory (h : tree.Opens (store.identityDir id) location)
    (hlink : tree.under location [dataLink] = some .directory) :
    runOn (store.get id).run tree = (.error (.storeIo (.file .readLink
      (FilePath.join (store.identityDir id) dataLink))), tree) := by
  have hread : run (.readLink (FilePath.join (store.identityDir id) dataLink)) tree =
      (.error .notLink, tree) := by
    rw [run, FileTree.readLink, h.find_join isName_dataLink hlink (by simp)]
    rfl
  rw [get]
  exact (runs_attempt hread).runOn_bind

theorem Blocked.get_eq (h : Blocked tree (store.identityDir id) location version after)
    (hopens : tree.Opens (store.identityDir id) location) (hversion : IsVersionName version.name)
    (hunused : tree.IsUnused version.name) :
    (runOn (store.get id).run after).1 = (runOn (store.get id).run tree).1 := by
  cases h with
  | draft _ hafter =>
      obtain ⟨links, -, hleads⟩ := hopens.leads_whole
      have hdir := hleads.notMem hunused.entries hversion.isName.isPart
      exact (alike_get (agreesBut_of_changes hunused hafter) hversion hdir).answer_eq
  | link hlink hopens' hafter =>
      rw [runOn_get_of_directory hopens hlink, runOn_get_of_directory hopens' hafter]

section bundle

variable {links : Nat}

theorem read_bundle_of_directory (h : tree.Leads links [] (FilePath.names dir) location)
    (hlinks : links ≤ FileTree.maxLinks)
    (hentry : tree.under location [bundleFile] = some .directory) :
    tree.read (FilePath.join dir bundleFile) = .error .isDirectory := by
  have hentry' : tree.entry? (location ++ [bundleFile]) = some .directory := hentry
  have hlocate : tree.locate (FilePath.join dir bundleFile) true =
      .ok (location ++ [bundleFile]) := by
    apply h.locate_join hlinks isName_bundleFile
    intro _ target
    rw [hentry']
    exact fun heq => nomatch heq
  rw [FileTree.read, FileTree.find_eq_ok_iff.mpr ⟨hlocate, hentry'⟩]
  rfl

/-- Either nothing is written, or a draft is and a directory is in the place that it is to take. -/
theorem stopped_of_putBundle
    (hmake : run (.makeDirectories (store.identityDir id)) tree = (.ok (), made))
    (hleads : made.Leads links [] (FilePath.names (store.identityDir id)) location)
    (hlinks : links ≤ FileTree.maxLinks)
    (h : runOn (store.putBundle id bundle).run tree = (.error failure, after)) :
    after = made ∨ made.under location [bundleFile] = some .directory ∧
      after.under location [bundleFile] = some .directory ∧
      after.Leads links [] (FilePath.names (store.identityDir id)) location := by
  rw [putBundle, (runs_call hmake _).runOn_bind] at h
  rcases hwrite : made.write (FilePath.join (store.identityDir id) bundleDraft) bundle with
    fault | saved
  · have hrun : run (.write _ bundle) made = (.error fault, made) := congrArg (settle made) hwrite
    rw [FileWork.runOn_bind_of_error (FileWork.runOn_call_of_error hrun _)] at h
    exact .inl (congrArg Prod.snd h).symm
  have hrun : run (.write _ bundle) made = (.ok (), saved) := congrArg (settle made) hwrite
  rw [(runs_call hrun _).runOn_bind] at h
  -- A draft that is a link was written through, and it is the link that moves.
  obtain ⟨hsaved, ⟨entry, hentry, hfile⟩, hdirectories⟩ :=
    hleads.write_join hlinks isName_bundleDraft hwrite
  have hsource : saved.find (FilePath.join (store.identityDir id) bundleDraft) false =
      .ok (location ++ [bundleDraft], entry) :=
    FileTree.find_eq_ok_iff.mpr ⟨hsaved.locate_join hlinks isName_bundleDraft (by simp), hentry⟩
  have htarget : saved.locate (FilePath.join (store.identityDir id) bundleFile) false =
      .ok (location ++ [bundleFile]) := hsaved.locate_join hlinks isName_bundleFile (by simp)
  rcases hrename : saved.rename (FilePath.join (store.identityDir id) bundleDraft)
    (FilePath.join (store.identityDir id) bundleFile) with fault | renamed
  · have hrun : run (.rename _ _) saved = (.error fault, saved) := congrArg (settle saved) hrename
    rw [FileWork.runOn_call_of_error hrun] at h
    cases h
    have hdirectory := FileTree.rename_eq_error hsource htarget hfile
      (FileTree.not_isBelow_beside location bundleDraft bundleFile) hrename
    exact .inr ⟨hdirectories _ hdirectory, hdirectory, hsaved⟩
  · have hrun : run (.rename _ _) saved = (.ok (), renamed) := congrArg (settle saved) hrename
    rw [runs_call hrun] at h
    cases h

theorem alike_getBundle_of_error (hgrounded : tree.IsGrounded)
    (hfooting : tree.HasFooting (store.identityDir id))
    (hshort : ∀ name ∈ FilePath.names (store.identityDir id),
      name.utf8ByteSize ≤ FileTree.maxNameOctets)
    (h : runOn (store.putBundle id bundle).run tree = (.error failure, after)) :
    (store.getBundle id).Alike tree after := by
  have hmakings : tree.Makings (store.identityDir id) (tree.makeDirectories (store.identityDir id)) :=
    FileTree.makings_makeDirectories hgrounded
      (FilePath.endsInStep_join _ (isName_kind id.kind).isPart) hfooting
  generalize hmake : tree.makeDirectories (store.identityDir id) = result at hmakings
  cases hmakings with
  | kept hleads hlinks =>
      obtain rfl | ⟨hmade, hafter, hleads'⟩ := stopped_of_putBundle hmake hleads hlinks h
      · exact alike_readOptional rfl _
      · have hread := read_bundle_of_directory hleads hlinks hmade
        exact alike_readOptional
          ((read_bundle_of_directory hleads' hlinks hafter).trans hread.symm) _
  | made hmade =>
      -- No bundle is found either way: the path led nowhere, and the directory is new.
      obtain ⟨links, hlinks, hleads⟩ := hmade.opens.leads_whole
      have hempty := FileTree.hasEntries_eq_false_iff.mp hmade.isEmpty [bundleFile]
        (List.cons_ne_nil _ _)
      obtain rfl | ⟨hdirectory, -, -⟩ := stopped_of_putBundle hmake hleads hlinks h
      · apply alike_readOptional
        rw [FileTree.read, FileTree.read, hmade.lacks.find_join isName_bundleFile,
          hmade.opens.find_join_none isName_bundleFile hempty]
      · rw [FileTree.under, hempty] at hdirectory
        cases hdirectory
  | failed hmade =>
      rcases hmade with rfl | ⟨name, hmem, hlong⟩
      · obtain ⟨failure', hput⟩ := runOn_putBundle_of_error hmake bundle
        rw [hput] at h
        cases h
        exact alike_readOptional rfl _
      · exact absurd (hshort name hmem) (Nat.not_le.mpr hlong)

end bundle

/-- What is found for an identity is the same before and after a call that fails. In the path of its
directory no name is too long, and no step up is taken from where nothing is. If the directory is
there, calls that put key material do not reach it through its own entries, which they may
replace. -/
theorem reads_eq_of_error {random : Octets} (huuid : random.length = 16)
    (hgrounded : tree.IsGrounded) (hunused : tree.IsUnused (versionName random))
    (hfooting : tree.HasFooting (store.identityDir id))
    (hshort : ∀ name ∈ FilePath.names (store.identityDir id),
      name.utf8ByteSize ≤ FileTree.maxNameOctets) :
    ((∀ location, tree.find (store.identityDir id) true = .ok (location, .directory) →
        tree.Opens (store.identityDir id) location) →
      ∀ material failure after,
        runOn (store.put id material (versionName random)).run tree = (.error failure, after) →
          (runOn (store.get id).run after).1 = (runOn (store.get id).run tree).1) ∧
    ∀ bundle failure after,
      runOn (store.putBundle id bundle).run tree = (.error failure, after) →
        (runOn (store.getBundle id).run after).1 = (runOn (store.getBundle id).run tree).1 := by
  have hversion := isVersionName_versionName huuid
  constructor
  · intro hown material failure after h
    obtain ⟨failure', other, hput, hcases⟩ | ⟨location, switched, other, -, hruns, -⟩ :=
      @put_outcome tree store id ⟨versionName random, material⟩ hgrounded hfooting hown hversion
        hunused.entries
    · obtain rfl : after = other := congrArg Prod.snd (h.symm.trans hput)
      obtain rfl | ⟨name, hmem, hlong⟩ | ⟨location, hopens, hblocked⟩ := hcases
      · rfl
      · exact absurd (hshort name hmem) (Nat.not_le.mpr hlong)
      · exact hblocked.get_eq hopens hversion hunused
    · rw [hruns] at h
      cases h
  · intro bundle failure after h
    exact (alike_getBundle_of_error hgrounded hfooting hshort h).answer_eq

namespace Sample

/-- The directory of an identity, with directories in the place of the draft of the link and of the
bundle. -/
def obstructed : FileTree :=
  ⟨(holding [(dataLink, .link "..old"), ("..old", .directory), (dataLinkDraft, .directory),
      (bundleFile, .directory)]).entries ++
    [(["c", "s", "a", "mutating", "..old", keyFile], .file [3] true),
      (["c", "s", "a", "mutating", "..old", certFile], .file [4] false)]⟩

def published (root : String) (tree : FileTree) : Except Failure Unit × FileTree :=
  runOn (putBundle ⟨root⟩ careless [5]).run tree

end Sample

theorem reads_eq_of_error_sample :
    (runOn (get ⟨"c"⟩ Sample.careless).run (Sample.placed "c" Sample.obstructed).2).1 =
        .ok (some ⟨[3], [4]⟩) ∧
      (runOn (getBundle ⟨"c"⟩ Sample.careless).run
        (Sample.published "c" Sample.obstructed).2).1 =
          .error (.publishIo (.file .read "c/s/a/mutating/ca-bundle.crt")) := by
  have hplaced : (Sample.placed "c" Sample.obstructed).1 =
      .error (.storeIo (.file .remove "c/s/a/mutating/..data_tmp")) := by decide +kernel
  have hpublished : (Sample.published "c" Sample.obstructed).1 =
      .error (.publishIo (.rename "c/s/a/mutating/ca-bundle.tmp" "c/s/a/mutating/ca-bundle.crt")) := by
    decide +kernel
  have hget : (runOn (get ⟨"c"⟩ Sample.careless).run Sample.obstructed).1 =
      .ok (some ⟨[3], [4]⟩) := by decide +kernel
  have hbundle : (runOn (getBundle ⟨"c"⟩ Sample.careless).run Sample.obstructed).1 =
      .error (.publishIo (.file .read "c/s/a/mutating/ca-bundle.crt")) := by decide +kernel
  have hshort : ∀ name ∈ FilePath.names (identityDir ⟨"c"⟩ Sample.careless),
      name.utf8ByteSize ≤ FileTree.maxNameOctets := by
    rw [Sample.names_careless]
    decide
  obtain ⟨hgets, hbundles⟩ := @reads_eq_of_error Sample.obstructed ⟨"c"⟩ Sample.careless
    (List.replicate 16 7) (by decide) (FileTree.isGrounded_of_entries (by decide +kernel))
    (FileTree.isUnused_of_entries (by decide +kernel))
    (FileTree.hasFooting_of_notMem (by rw [Sample.names_careless]; decide)) hshort
  rw [← hget, ← hbundle]
  exact ⟨hgets (fun _ => Sample.opens_standing (by decide +kernel)) _ _ _ (Prod.ext hplaced rfl),
    hbundles _ _ _ (Prod.ext hpublished rfl)⟩

namespace Sample

/-- The directory of an identity that is reached through the draft of its own link. -/
def ownDraft : FileTree :=
  ⟨[(["c"], .directory), (["c", "s"], .directory), (["c", "s", "a"], .directory),
    (["c", "s", "a", "mutating"], .link "real/..data_tmp"),
    (["c", "s", "a", "real"], .directory), (["c", "s", "a", "real", dataLinkDraft], .link "."),
    (["c", "s", "a", "real", dataLink], .link "v"), (["c", "s", "a", "real", "v"], .directory),
    (["c", "s", "a", "real", "v", keyFile], .file [3] true),
    (["c", "s", "a", "real", "v", certFile], .file [4] false)]⟩

/-- A file where a directory is needed, behind one that is not there. -/
def barred : FileTree := ⟨[(["f"], .file [9] false)]⟩

/-- What is found in a tree, and whether key material can be put there and what is found then. -/
def getPutAndGet (root : String) (tree : FileTree) :
    Except Failure (Option TlsMaterial) × Except Failure Unit ×
      Except Failure (Option TlsMaterial) :=
  ((runOn (get ⟨root⟩ careless).run tree).1, putAndGet root tree)

/-- What bundle is found in a tree, and whether one can be put there and what is found then. -/
def getPutAndGetBundle (root : String) (tree : FileTree) :
    Except Failure (Option Octets) × Except Failure Unit × Except Failure (Option Octets) :=
  let after := published root tree
  ((runOn (getBundle ⟨root⟩ careless).run tree).1, after.1,
    (runOn (getBundle ⟨root⟩ careless).run after.2).1)

theorem getPutAndGet_ownDraft :
    getPutAndGet "c" ownDraft = (.ok (some ⟨[3], [4]⟩),
      .error (.storeIo (.file .link "c/s/a/mutating/..data_tmp")), .ok none) := by
  decide +kernel

theorem getPutAndGet_barred :
    getPutAndGet "a/../f" barred = (.ok none,
      .error (.storeIo (.file .create
        ("a/../f/s/a/mutating/" ++ versionName (List.replicate 16 7)))),
      .error (.storeIo (.file .readLink "a/../f/s/a/mutating/..data"))) := by
  decide +kernel

theorem getPutAndGetBundle_barred :
    getPutAndGetBundle "a/../f" barred = (.ok none,
      .error (.publishIo (.file .create "a/../f/s/a/mutating")),
      .error (.publishIo (.file .read "a/../f/s/a/mutating/ca-bundle.crt"))) := by
  decide +kernel

end Sample

/-- What is found may change although a call fails: where the directory is reached through the draft
of the link, which is removed, and where a directory is made that a path steps into and out of. -/
theorem not_reads_eq_of_error :
    (Sample.careless.check = .ok () ∧
      ∀ tree ∈ [Sample.ownDraft, Sample.barred],
        tree.IsGrounded ∧ tree.IsUnused (versionName (List.replicate 16 7))) ∧
      Sample.getPutAndGet "c" Sample.ownDraft = (.ok (some ⟨[3], [4]⟩),
        .error (.storeIo (.file .link "c/s/a/mutating/..data_tmp")), .ok none) ∧
      Sample.getPutAndGet "a/../f" Sample.barred = (.ok none,
        .error (.storeIo (.file .create
          ("a/../f/s/a/mutating/" ++ versionName (List.replicate 16 7)))),
        .error (.storeIo (.file .readLink "a/../f/s/a/mutating/..data"))) ∧
      Sample.getPutAndGetBundle "a/../f" Sample.barred = (.ok none,
        .error (.publishIo (.file .create "a/../f/s/a/mutating")),
        .error (.publishIo (.file .read "a/../f/s/a/mutating/ca-bundle.crt"))) := by
  refine ⟨⟨rfl, ?_⟩, Sample.getPutAndGet_ownDraft, Sample.getPutAndGet_barred,
    Sample.getPutAndGetBundle_barred⟩
  simp only [List.mem_cons, List.not_mem_nil, or_false]
  rintro tree (rfl | rfl)
  · exact ⟨FileTree.isGrounded_of_entries (by decide +kernel),
      FileTree.isUnused_of_entries (by decide +kernel)⟩
  · exact ⟨FileTree.isGrounded_of_entries (by decide +kernel),
      FileTree.isUnused_of_entries (by decide +kernel)⟩

end DirectoryStore

end CertRotation
