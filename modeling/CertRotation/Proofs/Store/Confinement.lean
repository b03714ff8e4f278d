import CertRotation.Proofs.Files.Frame
import CertRotation.Proofs.Store.Identities
import CertRotation.Proofs.Store.VersionName
import Mathlib.Data.List.Infix

namespace CertRotation

namespace DirectoryStore

open FileTree (arrive)
open FileWork (Ends ends_of_runs ends_call ends_throw runs_pure runs_attempt runs_discard)
open FileOperation (run)
open FileProgram (runOn)

/-- The place of a path on which no link stands. -/
def placeOf (dir : String) : Location := arrive [] (FilePath.names dir)

/-- Outside the directory of a path nothing has changed, but that directories were made where
nothing stood on the way to it. -/
def StaysIn (dir : String) (tree after : FileTree) : Prop :=
  ∀ key, ¬placeOf dir <+: key → after.entry? key = tree.entry? key ∨
    tree.entry? key = none ∧ after.entry? key = some .directory ∧
      ∃ before, before <+: FilePath.names dir ∧ key = arrive [] before

/-- A tree that has changed so, and in which the path leads to its directory. -/
structure Confined (dir : String) (tree after : FileTree) : Prop where
  staysIn : StaysIn dir tree after
  leads : after.Leads 0 [] (FilePath.names dir) (placeOf dir)

variable {dir path name : String} {tree between after : FileTree} {place : Location}
  {version : String} {material : TlsMaterial}

theorem Confined.alters (h : Confined dir tree between)
    (halters : between.AltersBelow (placeOf dir) after) : Confined dir tree after := by
  refine ⟨?_, h.leads.of_altersBelow halters between.isSolid_nil⟩
  intro key hkey
  rw [halters.outside key]
  · exact h.staysIn key hkey
  · rw [Bool.eq_false_iff]
    intro hbelow
    obtain ⟨rest, -, rfl⟩ := FileTree.isBelow_iff.mp hbelow
    exact hkey (List.prefix_append _ _)

theorem Confined.altersAt (h : Confined dir tree between) {rest : Location} (hrest : rest ≠ [])
    (halters : between.AltersAt (placeOf dir ++ rest) after) : Confined dir tree after :=
  h.alters (halters.below (FileTree.isBelow_iff.mpr ⟨rest, hrest, rfl⟩))

theorem Confined.locate_join (h : Confined dir tree between) (hname : FilePath.IsName name) :
    between.locate (FilePath.join dir name) false = .ok (placeOf dir ++ [name]) :=
  h.leads.locate_join (Nat.zero_le _) hname fun hfollow => nomatch hfollow

theorem placeOf_join (dir : String) (hname : FilePath.IsName name) :
    placeOf (FilePath.join dir name) = placeOf dir ++ [name] := by
  rw [placeOf, FilePath.names_join dir hname.isPart]
  exact FileTree.arrive_concat (FileTree.isEntryStep_of_isName hname)

theorem staysIn_of_paves (hversion : FilePath.IsName version)
    (h : tree.Paves (FilePath.names (FilePath.join dir version)) after) :
    StaysIn dir tree after := by
  intro key hkey
  rcases h key with hsame | ⟨hnone, hmade, before, hbefore, rfl⟩
  · exact .inl hsame
  · rw [FilePath.names_join dir hversion.isPart] at hbefore
    rcases List.prefix_concat_iff.mp hbefore with rfl | hbefore
    · refine absurd ?_ hkey
      rw [FileTree.arrive_concat (FileTree.isEntryStep_of_isName hversion)]
      exact List.prefix_append _ _
    · exact .inr ⟨hnone, hmade, before, hbefore, rfl⟩

/-- A version is being written: its directory is there, and its files are not links. -/
structure Drafted (dir version : String) (tree between : FileTree) : Prop where
  confined : Confined dir tree between
  leads : between.Leads 0 [] (FilePath.names (FilePath.join dir version))
    (placeOf dir ++ [version])
  isFile : ∀ file target, between.entry? (placeOf dir ++ [version] ++ [file]) ≠
    some (.link target)

theorem drafted_of_makeDirectories (hversion : FilePath.IsName version)
    (hfree : tree.IsLinkFree [] (FilePath.names dir))
    (hunlinked : ∀ rest target,
      tree.entry? (placeOf dir ++ version :: rest) ≠ some (.link target)) :
    let result := run (.makeDirectories (FilePath.join dir version)) tree
    StaysIn dir tree result.2 ∧ (result.1 = .ok () → Drafted dir version tree result.2) := by
  have hplace := placeOf_join dir hversion
  have hfree' : tree.IsLinkFree [] (FilePath.names (FilePath.join dir version)) := by
    intro before hbefore target
    rw [FilePath.names_join dir hversion.isPart] at hbefore
    rcases List.prefix_concat_iff.mp hbefore with rfl | hbefore
    · rw [FileTree.arrive_concat (FileTree.isEntryStep_of_isName hversion)]
      exact hunlinked [] target
    · exact hfree before hbefore target
  obtain ⟨hpaves, hleads⟩ := FileTree.pavesUpTo_makeDirectories hfree'
  have hstays := staysIn_of_paves hversion hpaves
  refine ⟨hstays, ?_⟩
  intro hok
  have hleads := hleads hok
  have hbefore := hleads
  rw [FilePath.names_join dir hversion.isPart] at hbefore
  refine ⟨⟨hstays, hbefore.before⟩, hplace ▸ hleads, ?_⟩
  intro file target
  apply hpaves.entry?_ne_link
  rw [List.append_assoc]
  exact hunlinked [file] target

theorem Drafted.altersAt {file : String} (h : Drafted dir version tree between)
    (halters : between.AltersAt (placeOf dir ++ [version] ++ [file]) after)
    (hunlinked : ∀ key target, between.entry? key ≠ some (.link target) →
      after.entry? key ≠ some (.link target)) : Drafted dir version tree after := by
  rw [List.append_assoc] at halters
  have hbelow := halters.below (FileTree.isBelow_iff.mpr ⟨_, List.cons_ne_nil _ _, rfl⟩)
  exact ⟨h.confined.alters hbelow, h.leads.of_altersBelow hbelow between.isSolid_nil,
    fun file target => hunlinked _ target (h.isFile file target)⟩

theorem Drafted.locate_join {file : String} (h : Drafted dir version tree between)
    (hfile : FilePath.IsName file) :
    between.locate (FilePath.join (FilePath.join dir version) file) true =
      .ok (placeOf dir ++ [version] ++ [file]) :=
  h.leads.locate_join (Nat.zero_le _) hfile fun _ => h.isFile file

theorem Drafted.write {file : String} (h : Drafted dir version tree between)
    (hfile : FilePath.IsName file) (contents : Octets) :
    Drafted dir version tree
      (run (.write (FilePath.join (FilePath.join dir version) file) contents) between).2 :=
  h.altersAt (FileTree.altersAt_write (h.locate_join hfile) contents) fun _ _ hne =>
    FileTree.entry?_write_ne_link hne _ contents

theorem Drafted.makePrivate {file : String} (h : Drafted dir version tree between)
    (hfile : FilePath.IsName file) :
    Drafted dir version tree
      (run (.makePrivate (FilePath.join (FilePath.join dir version) file)) between).2 :=
  h.altersAt (FileTree.altersAt_makePrivate (h.locate_join hfile)) fun _ _ hne =>
    FileTree.entry?_makePrivate_ne_link hne _

theorem ends_writeVersion (hversion : FilePath.IsName version)
    (hfree : tree.IsLinkFree [] (FilePath.names dir))
    (hunlinked : ∀ rest target,
      tree.entry? (placeOf dir ++ version :: rest) ≠ some (.link target)) :
    (writeVersion (FilePath.join dir version) material).Ends tree
      (fun _ => Confined dir tree) (StaysIn dir tree) := by
  obtain ⟨hstays, hdrafted⟩ := drafted_of_makeDirectories hversion hfree hunlinked
  rw [writeVersion]
  apply Ends.bind (ends_call (fun _ hok => hdrafted hok) hstays)
  rintro ⟨⟩ made hmade
  have hwritten := hmade.write isName_keyFile material.keyPem
  apply Ends.bind (ends_call (fun _ _ => hwritten) hwritten.confined.staysIn)
  rintro ⟨⟩ written hwritten
  have hhidden := hwritten.makePrivate isName_keyFile
  apply Ends.bind (ends_call (fun _ _ => hhidden) hhidden.confined.staysIn)
  rintro ⟨⟩ hidden hhidden
  have hcomplete := hhidden.write isName_certFile material.certPem
  exact ends_call (fun _ _ => hcomplete.confined) hcomplete.confined.staysIn

theorem ends_ensureReaderLink {file : String} (h : Confined dir tree between)
    (hfile : FilePath.IsName file) :
    (ensureReaderLink dir file).Ends between (fun _ => Confined dir tree) (StaysIn dir tree) := by
  have hprobe : Ends (FileWork.attempt (.probe (FilePath.join dir file))) between
      (fun _ => Confined dir tree) (StaysIn dir tree) := ends_of_runs (runs_attempt rfl) h
  rw [ensureReaderLink]
  apply Ends.bind hprobe
  rintro (fault | ⟨⟩) probed hprobed
  · cases fault with
    | notFound =>
      have hmade := hprobed.altersAt (List.cons_ne_nil file [])
        (FileTree.altersAt_makeLink (hprobed.locate_join hfile) (FilePath.join dataLink file))
      exact ends_call (fun _ _ => hmade) hmade.staysIn
    | _ => exact ends_throw _ hprobed.staysIn
  · exact ends_of_runs (runs_pure () probed) hprobed

/-- How a call that replaces key material can leave a tree: with nothing changed outside the
directory but directories made on the way to it, or also with the removal of what a link led to that
is no name in the directory. -/
def Spares (dir : String) (tree after : FileTree) : Prop :=
  StaysIn dir tree after ∨ ∃ old between found,
    tree.readLink (FilePath.join dir dataLink) = .ok old ∧ ¬FilePath.IsPart old ∧
      StaysIn dir tree between ∧ between.locate (FilePath.join dir old) false = .ok found ∧
      ∀ key, after.entry? key = between.entry? key ∨ found <+: key ∧ after.entry? key = none

theorem Confined.spares_removeTree {old : String} (h : Confined dir tree between)
    (hold : tree.readLink (FilePath.join dir dataLink) = .ok old) :
    Spares dir tree (run (.removeTree (FilePath.join dir old)) between).2 := by
  rcases between.removeTree_cases (FilePath.join dir old) with hsame | ⟨found, hfound, hremoved⟩
  · rw [run, hsame]
    exact .inl h.staysIn
  by_cases hpart : FilePath.IsPart old
  · refine .inl ?_
    intro key hkey
    rcases hremoved key with hsame | ⟨hbelow, -⟩
    · rw [run, hsame]
      exact h.staysIn key hkey
    · rw [h.leads.eq_of_locate_join (Nat.zero_le _) hpart hfound] at hbelow
      exact absurd ((List.prefix_append _ _).trans hbelow) hkey
  · exact .inr ⟨old, between, found, hold, hpart, h.staysIn, hfound, hremoved⟩

/-- The link is made under a name of its own, so that no directory is moved with it. -/
theorem ends_link {next : FileWork Unit} {done : Unit → FileTree → Prop}
    (h : Confined dir tree between) (version : String)
    (hnext : ∀ switched, Confined dir tree switched → next.Ends switched done (StaysIn dir tree)) :
    let draft := FilePath.join dir dataLinkDraft
    let link := FilePath.join dir dataLink
    (do
      storeCall .link draft (.makeLink version draft)
      storeCall .rename draft (.rename draft link)
      ensureReaderLink dir keyFile
      ensureReaderLink dir certFile
      next : FileWork Unit).Ends between done (StaysIn dir tree) := by
  intro draft link
  have hdraft := h.locate_join isName_dataLinkDraft
  have hlinked := h.altersAt (List.cons_ne_nil dataLinkDraft [])
    (FileTree.altersAt_makeLink hdraft version)
  have hmake : Ends (storeCall .link draft (.makeLink version draft)) between
      (fun _ linked => Confined dir tree linked ∧
        linked.entry? (placeOf dir ++ [dataLinkDraft]) = some (.link version))
      (StaysIn dir tree) :=
    ends_call (fun _ hok => ⟨hlinked, FileTree.entry?_of_makeLink hdraft hok⟩) hlinked.staysIn
  apply Ends.bind hmake
  rintro ⟨⟩ linked ⟨hlinked, hentry⟩
  have hswitched : Confined dir tree (run (.rename draft link) linked).2 := by
    apply hlinked.alters
    apply FileTree.altersBelow_rename (hlinked.locate_join isName_dataLinkDraft)
      (hlinked.locate_join isName_dataLink)
    · exact FileTree.isBelow_append_cons _ _ _
    · exact FileTree.isBelow_append_cons _ _ _
    · rw [hentry]
      exact fun heq => nomatch heq
  apply Ends.bind (ends_call (fun _ _ => hswitched) hswitched.staysIn)
  rintro ⟨⟩ switched hswitched
  apply Ends.bind (ends_ensureReaderLink hswitched isName_keyFile)
  rintro ⟨⟩ first hfirst
  apply Ends.bind (ends_ensureReaderLink hfirst isName_certFile)
  rintro ⟨⟩ second hsecond
  exact hnext second hsecond

theorem ends_switch {next : FileWork Unit} {done : Unit → FileTree → Prop}
    (h : Confined dir tree between) (version : String)
    (hnext : ∀ switched, Confined dir tree switched → next.Ends switched done (StaysIn dir tree)) :
    let draft := FilePath.join dir dataLinkDraft
    let link := FilePath.join dir dataLink
    (do
      match ← FileWork.attempt (.removeFile draft) with
      | .ok () | .error .notFound => pure ()
      | .error _ => throw (.storeIo (.file .remove draft))
      storeCall .link draft (.makeLink version draft)
      storeCall .rename draft (.rename draft link)
      ensureReaderLink dir keyFile
      ensureReaderLink dir certFile
      next : FileWork Unit).Ends between done (StaysIn dir tree) := by
  intro draft link
  have hremove : Ends (FileWork.attempt (.removeFile draft)) between
      (fun _ => Confined dir tree) (StaysIn dir tree) := by
    apply ends_of_runs (runs_attempt rfl)
    exact h.altersAt (List.cons_ne_nil dataLinkDraft [])
      (FileTree.altersAt_removeFile (h.locate_join isName_dataLinkDraft))
  have hthrow : ∀ failure removed, Confined dir tree removed →
      Ends (throw failure : FileWork Unit) removed (fun _ _ => False) (StaysIn dir tree) :=
    fun failure removed hremoved => ends_throw failure hremoved.staysIn
  apply Ends.bind hremove
  rintro (fault | value) removed hremoved
  · cases fault with
    | notFound => exact ends_link hremoved version hnext
    | _ => exact (hthrow _ removed hremoved).bind fun _ _ hnever => hnever.elim
  · cases value
    exact ends_link hremoved version hnext

theorem ends_put {store : DirectoryStore} {id : WebhookIdentity}
    (hversion : FilePath.IsName version)
    (hfree : tree.IsLinkFree [] (FilePath.names (store.identityDir id)))
    (hunlinked : ∀ rest target,
      tree.entry? (placeOf (store.identityDir id) ++ version :: rest) ≠ some (.link target)) :
    (store.put id material version).Ends tree (fun _ => Spares (store.identityDir id) tree)
      (StaysIn (store.identityDir id) tree) := by
  rw [put]
  generalize store.identityDir id = dir at hfree hunlinked ⊢
  have hread : Ends (FileWork.attempt (.readLink (FilePath.join dir dataLink))) tree
      (fun answer after => answer = tree.readLink (FilePath.join dir dataLink) ∧ tree = after)
      (StaysIn dir tree) := ends_of_runs (runs_attempt rfl) ⟨rfl, rfl⟩
  apply Ends.bind hread
  rintro before _ ⟨hbefore, rfl⟩
  apply Ends.bind (ends_writeVersion hversion hfree hunlinked)
  rintro ⟨⟩ written hwritten
  rcases before with fault | old
  · apply ends_switch hwritten version
    intro switched hswitched
    exact ends_of_runs (runs_pure () switched) (.inl hswitched.staysIn)
  · apply ends_switch hwritten version
    intro switched hswitched
    by_cases hne : old ≠ version
    · simp only [if_pos hne]
      exact ends_of_runs (runs_discard (runs_attempt rfl))
        (hswitched.spares_removeTree hbefore.symm)
    · simp only [if_neg hne]
      exact ends_of_runs (runs_pure () switched) (.inl hswitched.staysIn)

/-- A call that replaces key material changes nothing outside the directory of its identity, but
that it makes directories on the way to it, if it fails or the link that it finds leads to a name in
the directory. In any case all that it does elsewhere is to remove what that link leads to. -/
theorem spares_of_put {store : DirectoryStore} {id : WebhookIdentity} {random : Octets}
    {answer : Except Failure Unit} (huuid : random.length = 16)
    (hfree : tree.IsLinkFree [] (FilePath.names (store.identityDir id)))
    (hunlinked : ∀ rest target, tree.entry? (placeOf (store.identityDir id) ++
      versionName random :: rest) ≠ some (.link target))
    (hrun : runOn (store.put id material (versionName random)).run tree = (answer, after)) :
    ((answer ≠ .ok () ∨ ∀ old,
        tree.readLink (FilePath.join (store.identityDir id) dataLink) = .ok old →
          FilePath.IsPart old) → StaysIn (store.identityDir id) tree after) ∧
      Spares (store.identityDir id) tree after := by
  have hends : Ends (store.put id material (versionName random)) tree _ _ :=
    ends_put (isVersionName_versionName huuid).isName hfree hunlinked
  rw [Ends, hrun] at hends
  rcases answer with failure | value
  · exact ⟨fun _ => hends, .inl hends⟩
  · refine ⟨?_, hends⟩
    rintro (hfailed | hpart)
    · exact absurd rfl hfailed
    · obtain hstays | ⟨old, between, found, hold, hnot, -⟩ := hends
      · exact hstays
      · exact absurd (hpart old hold) hnot

namespace Sample

/-- An identity with a directory of its own. -/
def careless : WebhookIdentity := ⟨"a", "s", .mutating⟩

/-- Directories of two identities. The first has a link in the place of the one to its version. -/
def neighbours (target : String) : FileTree :=
  ⟨[(["c"], .directory),
    (["c", "s"], .directory),
    (["c", "s", "a"], .directory),
    (["c", "s", "a", "mutating"], .directory),
    (["c", "s", "a", "mutating", "..data"], .link target),
    (["c", "s", "b"], .directory),
    (["c", "s", "b", "mutating"], .directory),
    (["c", "s", "b", "mutating", "tls.key"], .file [9] true)]⟩

/-- What it comes to when key material is put for the first one. -/
def outcome (target : String) : Except Failure Unit × FileTree :=
  runOn (put ⟨"c"⟩ careless ⟨[1], [2]⟩ (versionName (List.replicate 16 7))).run (neighbours target)

/-- An identity with a directory behind a link. -/
def lodger : WebhookIdentity := ⟨"b", "s", .mutating⟩

/-- The directory of one identity, with the directory of another in it that the link to its version
leads to. -/
def lodging : FileTree :=
  ⟨[(["c"], .directory),
    (["c", "s"], .directory),
    (["c", "s", "a"], .directory),
    (["c", "s", "a", "mutating"], .directory),
    (["c", "s", "a", "mutating", "..data"], .link "sub/mutating"),
    (["c", "s", "a", "mutating", "sub"], .directory),
    (["c", "s", "a", "mutating", "sub", "mutating"], .directory),
    (["c", "s", "a", "mutating", "sub", "mutating", "..data"], .link "..old"),
    (["c", "s", "a", "mutating", "sub", "mutating", "..old"], .directory),
    (["c", "s", "a", "mutating", "sub", "mutating", "..old", "tls.key"], .file [3] true),
    (["c", "s", "a", "mutating", "sub", "mutating", "..old", "tls.crt"], .file [4] false),
    (["c", "s", "b"], .link "a/mutating/sub")]⟩

/-- What is found for the other identity, whether key material can be put for the first one, and
what is found for the other one then. -/
def getPutAndGetOther : Except Failure (Option TlsMaterial) × Except Failure Unit ×
    Except Failure (Option TlsMaterial) :=
  let after := runOn (put ⟨"c"⟩ careless ⟨[1], [2]⟩ (versionName (List.replicate 16 7))).run lodging
  ((runOn (get ⟨"c"⟩ lodger).run lodging).1, after.1, (runOn (get ⟨"c"⟩ lodger).run after.2).1)

theorem names_careless :
    FilePath.names (identityDir ⟨"c"⟩ careless) = ["c", "s", "a", "mutating"] := by
  decide +kernel

theorem isLinkFree_careless {tree : FileTree} (h : ∀ above ∈ ["c", "s", "a", "mutating"].inits,
      tree.entry? (arrive [] above) = some .directory) :
    tree.IsLinkFree [] (FilePath.names (identityDir ⟨"c"⟩ careless)) := by
  rw [names_careless]
  intro before hbefore other
  rw [h before ((List.mem_inits _ _).mpr hbefore)]
  exact fun heq => nomatch heq

theorem neighbours_isLinkFree (target : String) :
    (neighbours target).IsLinkFree [] (FilePath.names (identityDir ⟨"c"⟩ careless)) := by
  apply isLinkFree_careless
  intro above hmem
  simp only [List.inits, List.map_cons, List.map_nil, List.mem_cons, List.not_mem_nil,
    or_false] at hmem
  rcases hmem with rfl | rfl | rfl | rfl | rfl
  · rfl
  · rfl
  · rfl
  · rfl
  · rfl

theorem neighbours_unlinked (rest : List String) (target : String) :
    FileTree.entry? (neighbours "..old") (placeOf (identityDir ⟨"c"⟩ careless) ++
      versionName (List.replicate 16 7) :: rest) ≠ some (.link target) := by
  rw [placeOf, names_careless, List.append_cons]
  have hnone : FileTree.entry? (neighbours "..old") (arrive [] ["c", "s", "a", "mutating"] ++
      [versionName (List.replicate 16 7)]) = none := by decide +kernel
  have hempty : FileTree.hasEntries (neighbours "..old") (arrive [] ["c", "s", "a", "mutating"] ++
      [versionName (List.replicate 16 7)]) = false := by decide +kernel
  rcases rest with _ | ⟨name, rest⟩
  · rw [List.append_nil, hnone]
    exact fun heq => nomatch heq
  · rw [FileTree.hasEntries_eq_false_iff.mp hempty _ (List.cons_ne_nil name rest)]
    exact fun heq => nomatch heq

end Sample

/-- A link to a name in the directory. -/
theorem spares_of_put_sample :
    StaysIn (identityDir ⟨"c"⟩ Sample.careless) (Sample.neighbours "..old")
      (Sample.outcome "..old").2 := by
  have hlink : (Sample.neighbours "..old").readLink
      (FilePath.join (identityDir ⟨"c"⟩ Sample.careless) dataLink) = .ok "..old" := by
    decide +kernel
  apply (spares_of_put (by decide) (Sample.neighbours_isLinkFree "..old")
    Sample.neighbours_unlinked (Prod.eta _).symm).1
  refine .inr fun old hold => ?_
  rw [hlink] at hold
  cases hold
  constructor
  · decide
  · decide
  · decide
  · decide

/-- What a link to the directory of another identity leads to is removed, although the call
succeeds: whether the other directory lies in this one, or outside of it. -/
theorem not_staysIn_of_put_elsewhere :
    Sample.careless.check = .ok () ∧
      (Sample.lodger.check = .ok () ∧
        Sample.lodging.IsLinkFree [] (FilePath.names (identityDir ⟨"c"⟩ Sample.careless)) ∧
        Sample.getPutAndGetOther = (.ok (some ⟨[3], [4]⟩), .ok (), .ok none)) ∧
      (Sample.neighbours "../../b/mutating").IsLinkFree []
        (FilePath.names (identityDir ⟨"c"⟩ Sample.careless)) ∧
      (Sample.outcome "../../b/mutating").1 = .ok () ∧
      ¬StaysIn (identityDir ⟨"c"⟩ Sample.careless) (Sample.neighbours "../../b/mutating")
        (Sample.outcome "../../b/mutating").2 := by
  obtain ⟨hanswer, hremoved⟩ : (Sample.outcome "../../b/mutating").1 = .ok () ∧
      FileTree.entry? (Sample.outcome "../../b/mutating").2
        ["c", "s", "b", "mutating", "tls.key"] = none := by
    decide +kernel
  have hlodging : Sample.lodging.IsLinkFree []
      (FilePath.names (identityDir ⟨"c"⟩ Sample.careless)) :=
    Sample.isLinkFree_careless (by decide +kernel)
  refine ⟨rfl, ⟨rfl, hlodging, by decide +kernel⟩, Sample.neighbours_isLinkFree _, hanswer, ?_⟩
  intro hstays
  have hplace : placeOf (identityDir ⟨"c"⟩ Sample.careless) = ["c", "s", "a", "mutating"] := by
    rw [placeOf, Sample.names_careless]
    rfl
  have houtside : ¬placeOf (identityDir ⟨"c"⟩ Sample.careless) <+:
      ["c", "s", "b", "mutating", "tls.key"] := by
    rw [hplace]
    decide
  rcases hstays _ houtside with hsame | ⟨-, hmade, -⟩
  · rw [hremoved] at hsame
    cases hsame
  · rw [hremoved] at hmade
    cases hmade

end DirectoryStore

end CertRotation
