import CertRotation.Proofs.Store.Confinement
import CertRotation.Proofs.Store.Contents
import CertRotation.Proofs.Store.Outcome

/-!
Key material that was put is found, whatever was in the directory of the identity before. Readers
who come through a link of the store find it as well; what stood in the place of such a link is left
to them.
-/

namespace CertRotation

namespace DirectoryStore

open FileProgram (runOn)
open FileWork (Runs)

variable {tree switched after : FileTree} {store : DirectoryStore} {id : WebhookIdentity}
  {dir old : String} {location : Location} {version : StoredVersion} {material : TlsMaterial}

theorem entry?_removeTree_cases (h : switched.Opens dir location) (hold : FilePath.IsPart old)
    (key : Location) :
    FileTree.entry? (switched.removeTree (FilePath.join dir old)).2 key = switched.entry? key ∨
      location ++ [old] <+: key ∧
        FileTree.entry? (switched.removeTree (FilePath.join dir old)).2 key = none := by
  rcases switched.removeTree_cases (FilePath.join dir old) with hsame | ⟨found, hfound, hremoved⟩
  · rw [hsame]
    exact .inl rfl
  · obtain ⟨links, hle, hleads⟩ := h.leads_whole
    obtain rfl := hleads.eq_of_locate_join hle hold hfound
    exact hremoved key

theorem under_removeTree {name : String} (h : switched.Opens dir location)
    (hold : FilePath.IsPart old) (hne : old ≠ name) (rest : List String) :
    FileTree.under (switched.removeTree (FilePath.join dir old)).2 location (name :: rest) =
      switched.under location (name :: rest) := by
  rcases entry?_removeTree_cases h hold (location ++ name :: rest) with hsame | ⟨hbelow, -⟩
  · exact hsame
  · rw [List.prefix_append_right_inj, List.cons_prefix_cons] at hbelow
    exact absurd hbelow.1 hne

theorem opens_removeTree (h : switched.Opens dir location) (hold : FilePath.IsPart old) :
    FileTree.Opens (switched.removeTree (FilePath.join dir old)).2 dir location := by
  apply h.congr
  intro key hkey
  rcases entry?_removeTree_cases h hold key with hsame | ⟨hbelow, -⟩
  · exact hsame
  · rw [FileTree.isBelow_of_starts (FileTree.isBelow_append_cons location old []) hbelow] at hkey
    cases hkey

theorem Current.removeTree (h : Current switched dir location version)
    (hold : FilePath.IsPart old) (hlink : old ≠ dataLink) (hversion : old ≠ version.name) :
    Current (switched.removeTree (FilePath.join dir old)).2 dir location version := by
  refine ⟨opens_removeTree h.opens hold, ?_, ?_⟩
  · rw [under_removeTree h.opens hold hlink, h.link]
  · intro rest
    rw [under_removeTree h.opens hold hversion, h.complete]

theorem Current.runs_get (h : Current tree (store.identityDir id) location version)
    (hversion : IsVersionName version.name) :
    (store.get id).Runs tree (some version.material) tree := by
  have hcurrent : ∀ other ∈ some version, IsVersionName other.name ∧ ∀ rest,
      tree.under location (other.name :: rest) = layout (some other) none (other.name :: rest) := by
    rintro _ ⟨⟩
    exact ⟨hversion, h.complete⟩
  have hlink : tree.under location [dataLink] =
      (some version).map fun version => .link version.name := h.link
  exact runs_get_of_opens h.opens hlink hcurrent

theorem Current.read {path file : String} {contents : Octets} {links : Nat}
    (h : Current tree dir location version) (hversion : IsVersionName version.name)
    (hlinks : links + 2 ≤ FileTree.maxLinks)
    (hleads : tree.Leads links [] (FilePath.names path) location)
    (hfile : (file, contents) ∈
      [(keyFile, version.material.keyPem), (certFile, version.material.certPem)])
    (hreader : tree.under location [file] = some (.link (FilePath.join dataLink file))) :
    tree.read (FilePath.join path file) = .ok contents := by
  have hdirectory := (h.complete []).trans (layout_version hversion)
  simp only [List.mem_cons, List.not_mem_nil, or_false, Prod.mk.injEq] at hfile
  rcases hfile with ⟨rfl, rfl⟩ | ⟨rfl, rfl⟩
  · exact read_readerLink hlinks hleads isName_keyFile hversion hreader h.link hdirectory
      ((h.complete [keyFile]).trans (layout_version_keyFile version none))
  · exact read_readerLink hlinks hleads isName_certFile hversion hreader h.link hdirectory
      ((h.complete [certFile]).trans (layout_version_certFile version none))

/-- What a call puts into a tree is found, if the call succeeds. The tree may hold anything in the
place of the directory of the identity and in it, but nothing of the name of the version; that
directory is not reached through its own entries if it is there, nor by a step up from where nothing
is. The link that the call finds may lead to any name in the directory but its own. Readers who come
to the directory with two links to spare find the files of what was put, unless something else than
the link of the store stood in the place of the one they take, or that is what the call removes as
the version before. What stood there otherwise stands there still. -/
theorem visible_of_put {random : Octets} (huuid : random.length = 16)
    (hgrounded : tree.IsGrounded)
    (hunused : ∀ key, versionName random ∈ key → tree.entry? key = none)
    (hfooting : tree.HasFooting (store.identityDir id))
    (hown : ∀ location, tree.find (store.identityDir id) true = .ok (location, .directory) →
      tree.Opens (store.identityDir id) location)
    (hold : ∀ old, tree.readLink (FilePath.join (store.identityDir id) dataLink) = .ok old →
      FilePath.IsPart old ∧ old ≠ dataLink)
    (hput : (store.put id material (versionName random)).Runs tree () after) :
    (store.get id).Runs after (some material) after ∧
      ∃ location, after.Opens (store.identityDir id) location ∧
        ∀ file contents,
          (file, contents) ∈ [(keyFile, material.keyPem), (certFile, material.certPem)] →
          tree.readLink (FilePath.join (store.identityDir id) dataLink) ≠ .ok file →
          if tree.entry? (location ++ [file]) ∈
              [none, some (.link (FilePath.join dataLink file))] then
            ∀ path links, links + 2 ≤ FileTree.maxLinks →
              after.Leads links [] (FilePath.names path) location →
                after.read (FilePath.join path file) = .ok contents
          else
            ∀ rest, after.entry? (location ++ file :: rest) =
              tree.entry? (location ++ file :: rest) := by
  have hversion := isVersionName_versionName huuid
  obtain ⟨failure, other, hfailed, -⟩ | ⟨location, switched, other, hswitched, hruns, hafter⟩ :=
    @put_outcome tree store id ⟨versionName random, material⟩ hgrounded hfooting hown hversion hunused
  · rw [Runs, hfailed] at hput
    cases hput
  obtain rfl : after = other := congrArg Prod.snd (hput.symm.trans hruns)
  -- Either nothing was removed, or one name in the directory was, which is not that of the link.
  obtain ⟨hcurrent, hkept⟩ : Current after (store.identityDir id) location
        ⟨versionName random, material⟩ ∧
      ∀ file, tree.readLink (FilePath.join (store.identityDir id) dataLink) ≠ .ok file →
        ∀ rest, after.under location (file :: rest) = switched.under location (file :: rest) := by
    obtain rfl | ⟨old, hread, hne, rfl⟩ := hafter
    · exact ⟨hswitched.toCurrent, fun _ _ _ => rfl⟩
    · obtain ⟨hpart, hlink⟩ := hold old hread
      refine ⟨hswitched.toCurrent.removeTree hpart hlink hne, ?_⟩
      intro file hfile rest
      refine under_removeTree hswitched.opens hpart ?_ rest
      rintro rfl
      exact hfile hread
  refine ⟨hcurrent.runs_get hversion, location, hcurrent.opens, ?_⟩
  intro file contents hmem hfile
  have hreader : file ∈ [keyFile, certFile] := by
    simp only [List.mem_cons, List.not_mem_nil, or_false, Prod.mk.injEq] at hmem ⊢
    exact hmem.imp And.left And.left
  have hstands : ∀ rest, after.under location (file :: rest) =
      if tree.under location [file] = none ∧ rest = [] then
        some (.link (FilePath.join dataLink file))
      else tree.under location (file :: rest) := by
    intro rest
    rw [hkept file hfile rest, hswitched.readers file hreader, withReaderEntry_self]
  split
  · rename_i hentry
    intro path links hlinks hleads
    refine hcurrent.read hversion hlinks hleads hmem ((hstands []).trans ?_)
    simp only [List.mem_cons, List.not_mem_nil, or_false] at hentry
    split
    · rfl
    · rename_i hnot
      exact hentry.resolve_left fun hnone => hnot ⟨hnone, rfl⟩
  · rename_i hentry
    intro rest
    refine (hstands rest).trans (if_neg ?_)
    rintro ⟨hnone, -⟩
    exact hentry (List.mem_cons.mpr (.inl hnone))

namespace Sample

/-- The directory of an identity, with something in it. -/
def holding (entries : List (String × FileEntry)) : FileTree :=
  ⟨[(["c"], .directory), (["c", "s"], .directory), (["c", "s", "a"], .directory),
    (["c", "s", "a", "mutating"], .directory)] ++
      entries.map fun e => (["c", "s", "a", "mutating", e.1], e.2)⟩

/-- What it comes to when key material is put into a tree. -/
def placed (root : String) (tree : FileTree) : Except Failure Unit × FileTree :=
  runOn (put ⟨root⟩ careless ⟨[1], [2]⟩ (versionName (List.replicate 16 7))).run tree

/-- A tree with a link that leads nowhere, a file in the place of the draft of that link, and
another in the place of one of the links for readers. -/
def cluttered : FileTree :=
  holding [(dataLink, .link "..old"), (dataLinkDraft, .file [8] false), (certFile, .file [9] false)]

theorem leads_standing {tree : FileTree} (h : ∀ above ∈ ["c", "s", "a", "mutating"].inits,
    tree.entry? above = some .directory) :
    tree.Leads 0 [] (FilePath.names (identityDir ⟨"c"⟩ careless)) ["c", "s", "a", "mutating"] := by
  rw [names_careless]
  refine .enter (by decide) (h ["c"] (by decide)) (.enter (by decide) (h ["c", "s"] (by decide)) ?_)
  refine .enter (by decide) (h ["c", "s", "a"] (by decide)) ?_
  exact .enter (by decide) (h ["c", "s", "a", "mutating"] (by decide)) (.here _)

theorem opens_standing {tree : FileTree} (h : ∀ above ∈ ["c", "s", "a", "mutating"].inits,
      FileTree.entry? (tree.clear ["c", "s", "a", "mutating"]) above = some .directory)
    {location : Location}
    (hfind : tree.find (identityDir ⟨"c"⟩ careless) true = .ok (location, .directory)) :
    tree.Opens (identityDir ⟨"c"⟩ careless) location := by
  have hstands : tree.entry? ["c", "s", "a", "mutating"] = some .directory :=
    (FileTree.entry?_clear_eq_some_iff.mp (h _ (by decide))).2
  have hopens : tree.Opens (identityDir ⟨"c"⟩ careless) ["c", "s", "a", "mutating"] :=
    ⟨hstands, 0, Nat.zero_le _, leads_standing h⟩
  obtain ⟨links, -, hleads⟩ := hopens.leads_whole
  obtain ⟨links', -, hleads'⟩ := FileTree.exists_leads_of_find hfind
  obtain rfl := hleads.location_eq hleads'
  exact hopens

end Sample

theorem visible_of_put_sample :
    let after := (Sample.placed "c" Sample.cluttered).2
    (get ⟨"c"⟩ Sample.careless).Runs after (some ⟨[1], [2]⟩) after ∧
      after.read (FilePath.join (identityDir ⟨"c"⟩ Sample.careless) keyFile) = .ok [1] ∧
      after.entry? ["c", "s", "a", "mutating", certFile] = some (.file [9] false) := by
  intro after
  have hunused : Sample.cluttered.IsUnused (versionName (List.replicate 16 7)) :=
    FileTree.isUnused_of_entries (by decide +kernel)
  have hlink : Sample.cluttered.readLink (FilePath.join (identityDir ⟨"c"⟩ Sample.careless)
      dataLink) = .ok "..old" := by decide +kernel
  have hold : ∀ old, Sample.cluttered.readLink (FilePath.join (identityDir ⟨"c"⟩ Sample.careless)
      dataLink) = .ok old → FilePath.IsPart old ∧ old ≠ dataLink := by
    intro old heq
    rw [hlink] at heq
    cases heq
    exact ⟨⟨by decide, by decide, by decide, by decide⟩, by decide⟩
  obtain ⟨hplaced, hstands⟩ : (Sample.placed "c" Sample.cluttered).1 = .ok () ∧
      ∀ above ∈ ["c", "s", "a", "mutating"].inits, after.entry? above = some .directory := by
    decide +kernel
  have hleads := Sample.leads_standing hstands
  obtain ⟨hget, location, hopens, hreads⟩ := visible_of_put (by decide)
    (FileTree.isGrounded_of_entries (by decide +kernel)) hunused.entries
    (FileTree.hasFooting_of_isDirectory (by decide +kernel))
    (fun _ => Sample.opens_standing (by decide +kernel)) hold (Prod.ext hplaced rfl)
  obtain ⟨links, -, hleads'⟩ := hopens.leads_whole
  obtain rfl := hleads.location_eq hleads'
  rw [hlink] at hreads
  have hkey := hreads keyFile [1] (by decide) (by decide)
  have hcert := hreads certFile [2] (by decide) (by decide)
  rw [if_pos (by decide)] at hkey
  rw [if_neg (by decide)] at hcert
  exact ⟨hget, hkey _ 0 (by decide) hleads, hcert []⟩

namespace Sample

/-- Whether key material can be put into a tree, and what a reader then finds at the link for the
key. -/
def putAndRead (root : String) (tree : FileTree) :
    Except Failure Unit × Except FileFault Octets :=
  let after := placed root tree
  (after.1, after.2.read (FilePath.join (identityDir ⟨root⟩ careless) keyFile))

/-- Whether key material can be put into a tree, and what is then found. -/
def putAndGet (root : String) (tree : FileTree) :
    Except Failure Unit × Except Failure (Option TlsMaterial) :=
  let after := placed root tree
  (after.1, (runOn (get ⟨root⟩ careless).run after.2).1)

/-- A tree in which the directory of an identity lies at the top. -/
def shallow : FileTree := ⟨[(["s"], .link "."), (["a"], .link ".")]⟩

/-- A path with steps up, over what is not there, from the place of a link for readers. -/
def climbing : String := "mutating/tls.key/../.."

/-- The directory of an identity that is reached through its own version. -/
def ownVersion : FileTree :=
  ⟨[(["c"], .directory), (["c", "s"], .directory), (["c", "s", "a"], .directory),
    (["c", "s", "a", "mutating"], .link "../../../x/v/.."), (["x"], .directory),
    (["x", "v"], .directory), (["x", "..data"], .link "v")]⟩

theorem putAndRead_taken :
    putAndRead "c" (holding [(keyFile, .file [9] false)]) = (.ok (), .ok [9]) := by
  decide +kernel

theorem putAndRead_winding : putAndRead "w/w/w" winding = (.ok (), .error .tooManyLinks) := by
  decide +kernel

/-- The tree after the directories on that path have been made. -/
def climbed : FileTree :=
  ⟨[(["mutating", versionName (List.replicate 16 7)], .directory),
    (["mutating", "tls.key"], .directory), (["mutating"], .directory)] ++ shallow.entries⟩

theorem shallow_makes :
    shallow.makeDirectories (FilePath.join (identityDir ⟨climbing⟩ careless)
      (versionName (List.replicate 16 7))) = (.ok (), climbed) := by
  have hancestors : FilePath.ancestors (FilePath.join (identityDir ⟨climbing⟩ careless)
      (versionName (List.replicate 16 7))) =
        [climbing ++ "/s/a/mutating/" ++ versionName (List.replicate 16 7),
          climbing ++ "/s/a/mutating", climbing ++ "/s/a", climbing ++ "/s", climbing,
          "mutating/tls.key/..", "mutating/tls.key", "mutating", ""] := by decide +kernel
  rw [FileTree.makeDirectories, hancestors]
  decide +kernel

theorem climbed_makes :
    climbed.makeDirectories (FilePath.join (identityDir ⟨climbing⟩ careless)
      (versionName (List.replicate 16 7))) = (.ok (), climbed) := by
  decide +kernel

theorem putAndRead_climbing : putAndRead climbing shallow = (.ok (), .error .isDirectory) := by
  rw [putAndRead, placed, runOn_put_of_made shallow_makes climbed_makes (by decide +kernel)]
  decide +kernel

theorem putAndGet_ownVersion : putAndGet "c" ownVersion = (.ok (), .ok none) := by
  decide +kernel

theorem putAndGet_looping :
    putAndGet "c" (holding [(dataLink, .link dataLink)]) = (.ok (), .ok none) := by
  decide +kernel

end Sample

/-- A call may succeed and its key material not be found: where something else stands in the place
of a link for readers, or is made there on the way; through a path with too many links; and where
the directory is reached through the version that is removed, or the link leads to itself. -/
theorem not_visible_of_put :
    Sample.careless.check = .ok () ∧
      Sample.putAndRead "c" (Sample.holding [(keyFile, .file [9] false)]) = (.ok (), .ok [9]) ∧
      Sample.putAndRead "w/w/w" Sample.winding = (.ok (), .error .tooManyLinks) ∧
      Sample.putAndRead Sample.climbing Sample.shallow = (.ok (), .error .isDirectory) ∧
      Sample.putAndGet "c" Sample.ownVersion = (.ok (), .ok none) ∧
      Sample.putAndGet "c" (Sample.holding [(dataLink, .link dataLink)]) = (.ok (), .ok none) :=
  ⟨rfl, Sample.putAndRead_taken, Sample.putAndRead_winding, Sample.putAndRead_climbing,
    Sample.putAndGet_ownVersion, Sample.putAndGet_looping⟩

end DirectoryStore

end CertRotation
