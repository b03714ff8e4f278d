import CertRotation.Proofs.Store.Sharing
import Mathlib.Control.Monad.Basic

namespace CertRotation

namespace StoreCall

/-- Whether a call is meant to change something. -/
def isWrite : StoreCall → Bool
  | put .. | putBundle .. => true
  | get _ | getBundle _ => false

/-- The version of an identity that a call writes. -/
def version? (id : WebhookIdentity) : StoreCall → Option DirectoryStore.StoredVersion
  | put other material random =>
    if other = id then some ⟨DirectoryStore.versionName random, material⟩ else none
  | _ => none

/-- The bundle of an identity that a call publishes. -/
def bundle? (id : WebhookIdentity) : StoreCall → Option Octets
  | putBundle other bundle => if other = id then some bundle else none
  | _ => none

variable {id : WebhookIdentity} {call : StoreCall}

theorem version?_of_ne (h : call.identity ≠ id) : call.version? id = none := by
  cases call with
  | put other material random => exact if_neg h
  | _ => rfl

theorem bundle?_of_ne (h : call.identity ≠ id) : call.bundle? id = none := by
  cases call with
  | putBundle other bundle => exact if_neg h
  | _ => rfl

end StoreCall

namespace DirectoryStore

open FileProgram (runOn runOn_bind runOn_pure)

/-- The version of an identity that the last of some calls to write one writes. -/
def lastVersion? (id : WebhookIdentity) (calls : List StoreCall) : Option StoredVersion :=
  (calls.filterMap (StoreCall.version? id)).getLast?

def lastBundle? (id : WebhookIdentity) (calls : List StoreCall) : Option Octets :=
  (calls.filterMap (StoreCall.bundle? id)).getLast?

theorem getLast?_filterMap_cons {α β : Type} (f : α → Option β) (first : α) (rest : List α) :
    ((first :: rest).filterMap f).getLast? = ((rest.filterMap f).getLast?).or (f first) := by
  rcases hfirst : f first with _ | value
  · rw [List.filterMap_cons_none hfirst, Option.or_none]
  · rw [List.filterMap_cons_some hfirst, List.getLast?_cons]
    cases (rest.filterMap f).getLast? with
    | none => rfl
    | some last => rfl

/-- The entries of the directory of an identity, by the way to them from that directory. -/
def contents (version : StoredVersion) (bundle : Option Octets) : List (Location × FileEntry) :=
  [([], .directory),
    ([version.name], .directory),
    ([version.name, keyFile], .file version.material.keyPem true),
    ([version.name, certFile], .file version.material.certPem false),
    ([dataLink], .link version.name),
    ([keyFile], .link (FilePath.join dataLink keyFile)),
    ([certFile], .link (FilePath.join dataLink certFile))] ++
  (bundle.map fun contents => ([bundleFile], .file contents false)).toList

theorem layout_eq_some_iff {version : StoredVersion} {bundle : Option Octets} {rest : Location}
    {entry : FileEntry} (hversion : IsVersionName version.name) :
    layout (some version) bundle rest = some entry ↔ (rest, entry) ∈ contents version bundle := by
  have hfixed := notMem_fixedNames_iff.mp hversion.notFixed
  simp only [contents, dataLink, keyFile, certFile, bundleFile]
  rcases rest with _ | ⟨first, _ | ⟨second, _ | ⟨third, rest⟩⟩⟩
  · cases bundle <;> simp [layout] <;> grind
  · cases bundle <;> simp [layout, dataLink, keyFile, certFile, bundleFile] <;> grind
  · cases bundle <;> simp [layout, keyFile, certFile] <;> grind
  · cases bundle <;> simp [layout]

variable {tree made after : FileTree} {dir root : String} {location place : Location}
  {version : StoredVersion} {bundle : Option Octets}
  {versions : WebhookIdentity → Option StoredVersion} {bundles : WebhookIdentity → Option Octets}

/-- A link for readers leads to a file of the version that is served, through one more link. -/
theorem read_readerLink {links : Nat} {file : String} {contents : Octets} {isPrivate : Bool}
    (hlinks : links + 2 ≤ FileTree.maxLinks)
    (hleads : tree.Leads links [] (FilePath.names dir) location) (hname : FilePath.IsName file)
    (hversion : IsVersionName version.name)
    (hreader : tree.under location [file] = some (.link (FilePath.join dataLink file)))
    (hdata : tree.under location [dataLink] = some (.link version.name))
    (hdirectory : tree.under location [version.name] = some .directory)
    (hcontents : tree.under location [version.name, file] = some (.file contents isPrivate)) :
    tree.read (FilePath.join dir file) = .ok contents := by
  have hstands : tree.entry? (location ++ [version.name] ++ [file]) =
      some (.file contents isPrivate) := by
    rw [List.append_assoc]
    exact hcontents
  have hsteps : FilePath.steps (FilePath.join dataLink file) = [dataLink, file] := by
    rw [FilePath.steps_join dataLink hname.isPart]
    rfl
  have hrelative : (FilePath.join dataLink file).startsWith "/" = false := by
    rw [String.startsWith_string_eq_false_iff,
      FilePath.toList_join dataLink hname.isPart.startsWith_slash]
    intro hstarts
    obtain ⟨heq, -⟩ := List.cons_prefix_cons.mp hstarts
    exact absurd heq (by decide)
  obtain ⟨left, hleft⟩ := Nat.exists_eq_add_of_le hlinks
  have hlocate : tree.locate (FilePath.join dir file) true =
      .ok (location ++ [version.name] ++ [file]) := by
    rw [FileTree.locate_join tree dir hname.isPart, hleft, Nat.add_assoc,
      hleads.follow_append (List.cons_ne_nil file []), Nat.add_comm 2,
      FileTree.follow_link (FileTree.isEntryStep_of_isName hname) hreader rfl, hrelative,
      if_neg Bool.false_ne_true, hsteps, List.append_nil,
      FileTree.follow_link (FileTree.isEntryStep_of_isName isName_dataLink) hdata rfl,
      hversion.isName.isPart.startsWith_slash, if_neg Bool.false_ne_true,
      FilePath.steps_of_isPart hversion.isName.isPart, List.singleton_append,
      FileTree.follow_enter (FileTree.isEntryStep_of_isName hversion.isName) hdirectory,
      FileTree.follow_file (FileTree.isEntryStep_of_isName hname) hstands]
    rfl
  have hfind := FileTree.find_eq_ok_iff.mpr ⟨hlocate, hstands⟩
  rw [FileTree.read, hfind]
  rfl

/-- The directory of an identity holds one version, the links to it and perhaps a bundle, and
nothing else. Whoever comes to that directory with two links to spare, of those that a path may lead
through, reads the files of that version through the links. -/
structure IsTidy (tree : FileTree) (dir : String) (location : Location) (version : StoredVersion)
    (bundle : Option Octets) : Prop where
  opens : tree.Opens dir location
  holds : ∀ rest entry,
    tree.entry? (location ++ rest) = some entry ↔ (rest, entry) ∈ contents version bundle
  reads : ∀ path links, links + 2 ≤ FileTree.maxLinks →
    tree.Leads links [] (FilePath.names path) location →
      tree.read (FilePath.join path keyFile) = .ok version.material.keyPem ∧
        tree.read (FilePath.join path certFile) = .ok version.material.certPem

theorem isTidy_of_shows (h : Shows tree dir location (some version) bundle)
    (hversion : IsVersionName version.name) : IsTidy tree dir location version bundle := by
  obtain ⟨-, hnone, -⟩ | ⟨hopens, hlayout⟩ := h
  · cases hnone
  · refine ⟨hopens, ?_, ?_⟩
    · intro rest entry
      rw [← layout_eq_some_iff hversion, ← hlayout]
      rfl
    · intro path links hlinks hleads
      have hreads : ∀ file ∈ [keyFile, certFile], ∀ contents isPrivate,
          layout (some version) bundle [version.name, file] = some (.file contents isPrivate) →
            tree.read (FilePath.join path file) = .ok contents := by
        intro file hfile contents isPrivate hcontents
        have hsubset : [keyFile, certFile] ⊆ fixedNames := by decide
        rw [← hlayout] at hcontents
        apply read_readerLink hlinks hleads (isName_of_mem_fixedNames (hsubset hfile)) hversion _ _ _
          hcontents
        · rw [hlayout, layout_readerLink hfile]
          rfl
        · rw [hlayout, layout_dataLink]
          rfl
        · rw [hlayout, layout_version hversion]
      exact ⟨hreads keyFile (by decide) _ _ (layout_version_keyFile version bundle),
        hreads certFile (by decide) _ _ (layout_version_certFile version bundle)⟩

/-- What a tree has of every identity, every version under a name that nothing else has. -/
structure Stocks (tree : FileTree) (root : String) (place : Location)
    (versions : WebhookIdentity → Option StoredVersion)
    (bundles : WebhookIdentity → Option Octets) : Prop where
  represents : Represents tree root place versions bundles
  isVersionName : ∀ id, ∀ version ∈ versions id, IsVersionName version.name

theorem Stocks.isTidy {id : WebhookIdentity} (h : Stocks tree root place versions bundles)
    (hid : id.IsStorable) (hversion : versions id = some version) :
    IsTidy tree (identityDir ⟨root⟩ id) (place ++ folder id) version (bundles id) := by
  have hshows := h.represents.shows hid
  rw [hversion] at hshows
  exact isTidy_of_shows hshows (h.isVersionName id version hversion)

theorem Stocks.runs_get {id : WebhookIdentity} (h : Stocks tree root place versions bundles)
    (hid : id.IsStorable) :
    (DirectoryStore.get ⟨root⟩ id).Runs tree ((versions id).map StoredVersion.material) tree :=
  DirectoryStore.runs_get (h.represents.shows hid) (h.isVersionName id)

/-- What a call gives, and how what a tree has follows from it: the identities whose names are short
enough get what the call brings, and a call that brings something fails for the others. -/
structure Turns (root : String) (place : Location)
    (versions : WebhookIdentity → Option StoredVersion)
    (bundles : WebhookIdentity → Option Octets) (call : StoreCall)
    (answer : Except Failure StoreAnswer) (after : FileTree) : Prop where
  stocks : ∃ versions' bundles', Stocks after root place versions' bundles' ∧
    ∀ id : WebhookIdentity, id.IsStorable →
      versions' id = (call.version? id).or (versions id) ∧
        bundles' id = (call.bundle? id).or (bundles id)
  succeeds_iff : call.isWrite = true → (answer = .ok .done ↔ call.identity.IsStorable)

theorem Stocks.turns_of_fails (h : Stocks after root place versions bundles) (call : StoreCall)
    (hlong : ¬call.identity.IsStorable) (failure : Failure) :
    Turns root place versions bundles call (.error failure) after := by
  refine ⟨⟨versions, bundles, h, ?_⟩, ?_⟩
  · intro id hid
    have hne : call.identity ≠ id := by
      rintro rfl
      exact hlong hid
    rw [StoreCall.version?_of_ne hne, StoreCall.bundle?_of_ne hne]
    exact ⟨rfl, rfl⟩
  · intro _
    constructor
    · intro heq
      cases heq
    · intro hid
      exact absurd hid hlong

theorem Stocks.turns_put {id : WebhookIdentity} {random : Octets}
    (h : Stocks tree root place versions bundles) (haccepted : id.check = .ok ())
    (huuid : random.length = 16) (material : TlsMaterial) :
    ∃ answer after,
      runOn (DirectoryStore.answer ⟨root⟩ (.put id material random)).run tree = (answer, after) ∧
      Turns root place versions bundles (.put id material random) answer after := by
  have hversion := isVersionName_versionName huuid
  by_cases hid : id.IsStorable
  · obtain ⟨after, hruns, hafter⟩ := @Represents.runs_put _ _ _ _ ⟨versionName random, material⟩
      _ _ h.represents (h.isVersionName id) hid hversion
    refine ⟨_, after, hruns.bind (FileWork.runs_pure _ after), ⟨_, _, ⟨hafter, ?_⟩, ?_⟩, ?_⟩
    · intro other version hmem
      rcases eq_or_ne other id with rfl | hne
      · rw [Function.update_self] at hmem
        cases hmem
        exact hversion
      · rw [Function.update_of_ne hne] at hmem
        exact h.isVersionName other version hmem
    · intro other _
      refine ⟨?_, rfl⟩
      rcases eq_or_ne other id with rfl | hne
      · rw [Function.update_self, StoreCall.version?, if_pos rfl]
        rfl
      · rw [Function.update_of_ne hne, StoreCall.version?, if_neg hne.symm]
        rfl
    · exact fun _ => ⟨fun _ => hid, fun _ => rfl⟩
  · obtain ⟨made, hrefuses, hmade⟩ := h.represents.refuses haccepted hid
    obtain ⟨failure, hfails⟩ := runOn_put_of_refuses hrefuses hversion material
    exact ⟨_, made, FileWork.runOn_bind_of_error hfails,
      Stocks.turns_of_fails ⟨hmade, h.isVersionName⟩ (.put id material random) hid failure⟩

theorem Stocks.turns_putBundle {id : WebhookIdentity}
    (h : Stocks tree root place versions bundles) (haccepted : id.check = .ok ())
    (bundle : Octets) :
    ∃ answer after,
      runOn (DirectoryStore.answer ⟨root⟩ (.putBundle id bundle)).run tree = (answer, after) ∧
      Turns root place versions bundles (.putBundle id bundle) answer after := by
  by_cases hid : id.IsStorable
  · obtain ⟨after, hruns, hafter⟩ := h.represents.runs_putBundle (h.isVersionName id) hid bundle
    refine ⟨_, after, hruns.bind (FileWork.runs_pure _ after),
      ⟨_, _, ⟨hafter, h.isVersionName⟩, ?_⟩, ?_⟩
    · intro other _
      refine ⟨rfl, ?_⟩
      rcases eq_or_ne other id with rfl | hne
      · rw [Function.update_self, StoreCall.bundle?, if_pos rfl]
        rfl
      · rw [Function.update_of_ne hne, StoreCall.bundle?, if_neg hne.symm]
        rfl
    · exact fun _ => ⟨fun _ => hid, fun _ => rfl⟩
  · obtain ⟨made, hrefuses, hmade⟩ := h.represents.refuses haccepted hid
    obtain ⟨failure, hfails⟩ := runOn_putBundle_of_refuses hrefuses bundle
    exact ⟨_, made, FileWork.runOn_bind_of_error hfails,
      Stocks.turns_of_fails ⟨hmade, h.isVersionName⟩ (.putBundle id bundle) hid failure⟩

theorem Stocks.turns_answer {call : StoreCall} (h : Stocks tree root place versions bundles)
    (haccepted : call.identity.check = .ok ())
    (huuid : ∀ random ∈ call.random?, random.length = 16) :
    ∃ answer after, runOn (DirectoryStore.answer ⟨root⟩ call).run tree = (answer, after) ∧
      Turns root place versions bundles call answer after := by
  have hkeeps : ∀ {id : WebhookIdentity}, id.IsStorable →
      versions id = (none : Option StoredVersion).or (versions id) ∧
        bundles id = (none : Option Octets).or (bundles id) := fun _ => ⟨rfl, rfl⟩
  cases call with
  | put id material random => exact h.turns_put haccepted (huuid random rfl) material
  | putBundle id bundle => exact h.turns_putBundle haccepted bundle
  | get id =>
      have honly : (DirectoryStore.answer ⟨root⟩ (.get id)).run.OnlyAsks
          FileOperation.IsRead :=
        (get_onlyAsks ⟨root⟩ id).run_bind fun _ => Program.onlyAsks_pure _
      have hsame := FileProgram.tree_eq_of_onlyAsks honly tree
      refine ⟨_, tree, Prod.ext rfl hsame, ⟨versions, bundles, h, fun _ => hkeeps⟩, ?_⟩
      exact fun hwrite => absurd hwrite Bool.false_ne_true
  | getBundle id =>
      have honly : (DirectoryStore.answer ⟨root⟩ (.getBundle id)).run.OnlyAsks
          FileOperation.IsRead :=
        (getBundle_onlyAsks ⟨root⟩ id).run_bind fun _ => Program.onlyAsks_pure _
      have hsame := FileProgram.tree_eq_of_onlyAsks honly tree
      refine ⟨_, tree, Prod.ext rfl hsame, ⟨versions, bundles, h, fun _ => hkeeps⟩, ?_⟩
      exact fun hwrite => absurd hwrite Bool.false_ne_true

/-- Calls one after another: each identity ends with what was brought for it last. -/
theorem Stocks.runOn_answers {calls : List StoreCall} (h : Stocks tree root place versions bundles)
    (haccepted : ∀ call ∈ calls, call.identity.check = .ok ())
    (huuids : ∀ random ∈ calls.filterMap StoreCall.random?, random.length = 16) :
    ∃ versions' bundles',
      Stocks (runOn (DirectoryStore.answers ⟨root⟩ calls) tree).2 root place versions' bundles' ∧
      (∀ id : WebhookIdentity, id.IsStorable →
        versions' id = (lastVersion? id calls).or (versions id) ∧
          bundles' id = (lastBundle? id calls).or (bundles id)) ∧
      ∀ call answer,
        (call, answer) ∈ calls.zip (runOn (DirectoryStore.answers ⟨root⟩ calls) tree).1 →
          call.isWrite = true → (answer = .ok .done ↔ call.identity.IsStorable) := by
  induction calls generalizing tree versions bundles with
  | nil =>
      refine ⟨versions, bundles, h, fun _ _ => ⟨rfl, rfl⟩, ?_⟩
      intro call answer hmem
      cases hmem
  | cons call rest ih =>
      obtain ⟨answer, after, hanswer, ⟨⟨versions₁, bundles₁, hafter, hfirst⟩, hsucceeds⟩⟩ :=
        h.turns_answer (haccepted call List.mem_cons_self) fun random hmem =>
          huuids random (List.mem_filterMap.mpr ⟨call, List.mem_cons_self, hmem⟩)
      obtain ⟨versions₂, bundles₂, hlast, hrest, hsucceeds'⟩ :=
        ih hafter (fun later hmem => haccepted later (List.mem_cons_of_mem call hmem))
          fun random hmem => by
            obtain ⟨later, hlater, hrandom⟩ := List.mem_filterMap.mp hmem
            exact huuids random
              (List.mem_filterMap.mpr ⟨later, List.mem_cons_of_mem call hlater, hrandom⟩)
      have hrun : runOn (DirectoryStore.answers ⟨root⟩ (call :: rest)) tree =
          (answer :: (runOn (DirectoryStore.answers ⟨root⟩ rest) after).1,
            (runOn (DirectoryStore.answers ⟨root⟩ rest) after).2) := by
        rw [DirectoryStore.answers, runOn_bind, hanswer, runOn_bind, runOn_pure]
      rw [hrun]
      refine ⟨versions₂, bundles₂, hlast, ?_, ?_⟩
      · intro id hid
        obtain ⟨hversion, hbundle⟩ := hfirst id hid
        obtain ⟨hversion', hbundle'⟩ := hrest id hid
        constructor
        · rw [hversion', hversion, lastVersion?, lastVersion?, getLast?_filterMap_cons,
            Option.or_assoc]
        · rw [hbundle', hbundle, lastBundle?, lastBundle?, getLast?_filterMap_cons,
            Option.or_assoc]
      · intro other answer' hmem
        rcases List.mem_cons.mp hmem with heq | hmem
        · cases heq
          exact hsucceeds
        · exact hsucceeds' other answer' hmem

theorem stocks_of_newRoot (h : tree.NewRoot root place made) :
    Stocks tree root place (fun _ => none) fun _ => none := by
  obtain ⟨versions, hrepresents, hmaterials, hnames⟩ := stores_of_newRoot h []
  have hnone : versions = fun _ => none := by
    funext id
    exact Option.map_eq_none_iff.mp (hmaterials id).symm
  rw [hnone] at hrepresents
  refine ⟨hrepresents, ?_⟩
  intro id version hmem
  cases hmem

theorem exists_lastVersion? {id : WebhookIdentity} {material : TlsMaterial} {random : Octets}
    {calls : List StoreCall} (h : .put id material random ∈ calls) :
    ∃ version, lastVersion? id calls = some version := by
  have hmem : ⟨versionName random, material⟩ ∈ calls.filterMap (StoreCall.version? id) :=
    List.mem_filterMap.mpr ⟨_, h, if_pos rfl⟩
  rw [lastVersion?, ← Option.isSome_iff_exists, List.getLast?_isSome]
  exact List.ne_nil_of_mem hmem

/-- From a root that does not exist, after any calls for identities that are accepted: exactly the
writes for identities whose names are short enough have succeeded, and the directory of every
identity that key material was put for is in order, with what was put last and the bundle that was
published last. -/
theorem isTidy_of_newRoot {store : DirectoryStore} {calls : List StoreCall}
    {answers : List (Except Failure StoreAnswer)} (hroot : tree.NewRoot store.root place made)
    (haccepted : ∀ call ∈ calls, call.identity.check = .ok ())
    (huuids : ∀ random ∈ calls.filterMap StoreCall.random?, random.length = 16)
    (hrun : (store.answers calls).runOn tree = (answers, after)) :
    (∀ call answer, (call, answer) ∈ calls.zip answers → call.isWrite = true →
      (answer = .ok .done ↔ call.identity.IsStorable)) ∧
    ∀ id material random, (.put id material random, .ok .done) ∈ calls.zip answers →
      ∃ version, lastVersion? id calls = some version ∧
        IsTidy after (store.identityDir id) (place ++ folder id) version (lastBundle? id calls) ∧
        (store.get id).Runs after (some version.material) after := by
  obtain ⟨versions, bundles, hstocks, hlast, hsucceeds⟩ :=
    (stocks_of_newRoot hroot).runOn_answers haccepted huuids
  change (DirectoryStore.answers ⟨store.root⟩ calls).runOn tree = _ at hrun
  rw [hrun] at hstocks hsucceeds
  refine ⟨hsucceeds, ?_⟩
  intro id material random hmem
  have hid : id.IsStorable := (hsucceeds _ _ hmem rfl).mp rfl
  obtain ⟨version, hversion⟩ := exists_lastVersion? (List.of_mem_zip hmem).1
  obtain ⟨hversions, hbundles⟩ := hlast id hid
  rw [hversion, Option.some_or] at hversions
  rw [Option.or_none] at hbundles
  have htidy := hstocks.isTidy hid hversions
  have hget := hstocks.runs_get hid
  rw [hbundles] at htidy
  rw [hversions] at hget
  exact ⟨version, hversion, htidy, hget⟩

theorem isTidy_of_newRoot_sample :
    let store : DirectoryStore := ⟨"/srv/certs/"⟩
    let after := ((store.answers Sample.calls).runOn Sample.start).2
    let version : StoredVersion := ⟨versionName (List.replicate 16 8), [4], [5]⟩
    IsTidy after (store.identityDir Sample.mutating)
        ["srv", "certs", "system", "hook", "mutating"] version (some [6]) ∧
      (store.get Sample.mutating).Runs after (some ⟨[4], [5]⟩) after := by
  intro store after version
  have haccepted : ∀ call ∈ Sample.calls, call.identity.check = .ok () := fun call hmem =>
    (Sample.servable.isStorable call hmem).accepted
  have hanswers := (stores_of_newRoot Sample.newRoot _).answers_eq Sample.servable
  obtain ⟨-, hall⟩ :=
    isTidy_of_newRoot Sample.newRoot haccepted Sample.servable.isUuid (Prod.eta _).symm
  rw [hanswers] at hall
  obtain ⟨last, hlast, htidy, hget⟩ :=
    hall Sample.mutating ⟨[4], [5]⟩ (List.replicate 16 8) (List.mem_iff_getElem?.mpr ⟨3, rfl⟩)
  obtain rfl : version = last := Option.some.inj hlast
  exact ⟨htidy, hget⟩

namespace Sample

/-- Links that make `w/w/w` a path through thirty-nine of them. -/
def winding : FileTree :=
  ⟨[(["w"], .link "x/x/x"), (["x"], .link "y/y/y"), (["y"], .link ".")]⟩

/-- A root that does not exist, behind those links. -/
def remoteRoot : String := "w/w/w/n"

/-- Key material that is put below that root and asked for. -/
def remoteCalls : List StoreCall :=
  [.put mutating ⟨[1], [2]⟩ (List.replicate 16 7), .get mutating]

def remote : FileTree := ((answers ⟨remoteRoot⟩ remoteCalls).runOn winding).2

theorem newRoot_winding : winding.NewRoot remoteRoot ["n"] (winding.insert ["n"] .directory) := by
  have hfind : winding.find "w/w/w" true = .ok ([], .directory) := by decide +kernel
  have hname : FilePath.IsName "n" :=
    ⟨by decide, by decide, by decide, by decide, by decide⟩
  have hroot : remoteRoot = FilePath.join "w/w/w" "n" := by decide +kernel
  rw [hroot]
  exact FileTree.newRoot_join hfind hname rfl rfl

theorem servable_remoteCalls : Servable remoteCalls := by
  constructor
  · intro call hmem
    have hidentity : call.identity = mutating := by
      revert call
      decide
    rw [hidentity]
    exact ⟨rfl, by decide, by decide⟩
  · decide
  · decide

end Sample

/-- From a root that does not exist, key material may be found by the store and not through the
links for readers: these are two links more than the longest path may lead through. -/
theorem not_reads_of_newRoot :
    (∃ place made, Sample.winding.NewRoot Sample.remoteRoot place made) ∧
      Servable Sample.remoteCalls ∧
      ((answers ⟨Sample.remoteRoot⟩ Sample.remoteCalls).runOn Sample.winding).1 =
        [.ok .done, .ok (.material (some ⟨[1], [2]⟩))] ∧
      ∀ file ∈ [keyFile, certFile],
        Sample.remote.read (FilePath.join (identityDir ⟨Sample.remoteRoot⟩ Sample.mutating) file) =
          .error .tooManyLinks := by
  refine ⟨⟨_, _, Sample.newRoot_winding⟩, Sample.servable_remoteCalls, ?_, ?_⟩
  · exact (stores_of_newRoot Sample.newRoot_winding _).answers_eq Sample.servable_remoteCalls
  · decide +kernel

end DirectoryStore

end CertRotation
