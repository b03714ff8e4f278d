import CertRotation.Proofs.Store.Refinement
import CertRotation.Proofs.Store.Serving

namespace CertRotation

namespace DirectoryStore

open FileOperation (run)

variable {store : DirectoryStore} {id : WebhookIdentity} {tree made after : FileTree}
  {dir : String} {location place : Location} {versions swapped waiting : List StoredVersion}
  {version : StoredVersion} {writers : Writers}

/-- A tree that has nothing yet of what the writers of some versions will make: the directory can
be made, if it is not there, and the names in it are free. -/
structure IsVacant (dir : String) (location : Location) (tree made : FileTree)
    (versions : List StoredVersion) : Prop where
  makes : tree.Makes dir location made
  isFree : ∀ name ∈ dataLink :: dataLinkDraft :: versions.map StoredVersion.name, ∀ rest,
    made.under location (name :: rest) = none
  isVersionName : ∀ version ∈ versions, IsVersionName version.name
  distinct : (versions.map StoredVersion.name).Nodup

theorem isVacant_of_newRoot (h : tree.NewRoot store.root place made) (hid : id.IsStorable)
    (hnames : ∀ version ∈ versions, IsVersionName version.name)
    (hdistinct : (versions.map StoredVersion.name).Nodup) :
    ∃ location made, IsVacant (store.identityDir id) location tree made versions := by
  obtain ⟨_, hspace⟩ := h.join (isName_space hid)
  obtain ⟨_, hname⟩ := hspace.join (isName_name hid)
  obtain ⟨made, hdir⟩ := hname.join (isName_kind id.kind)
  refine ⟨_, made, hdir.toMakes, ?_, hnames, hdistinct⟩
  intro name _ rest
  exact FileTree.hasEntries_eq_false_iff.mp hdir.isEmpty _ (List.cons_ne_nil name rest)

theorem IsVacant.serves (h : IsVacant dir location tree made versions) :
    Serves dir location versions tree [] := by
  have hdraft := h.isFree dataLinkDraft (by simp)
  refine ⟨made, h.makes, .inr rfl, ?_⟩
  constructor
  · exact h.isFree dataLink (by simp) []
  · simp [hdraft []]
  · exact fun rest _ => hdraft rest
  · intro version hmem
    cases hmem
  · intro version hmem
    cases hmem
  · intro version hmem
    exact h.isFree version.name
      (List.mem_cons_of_mem _ (List.mem_cons_of_mem _ (List.mem_map_of_mem hmem)))
  · exact h.isVersionName
  · exact h.distinct

/-- The versions are as they should be, and remain so whatever is left of the writer that runs. -/
structure Writers.Sound (dir : String) (location : Location) (writers : Writers) : Prop where
  serves : Serves dir location writers.waiting writers.tree writers.swapped
  guarded : ∀ version program, writers.running = some (version, program) →
    Guards dir version (Serves dir location writers.waiting)
      (fun _ => Serves dir location writers.waiting) program writers.tree writers.swapped

theorem IsVacant.sound (h : IsVacant dir location tree made versions) :
    Writers.Sound dir location ⟨tree, [], none, versions⟩ :=
  ⟨h.serves, by rintro _ _ ⟨⟩⟩

theorem Writers.Sound.of_guards {program : FileProgram (Except Failure Unit)}
    (h : Guards dir version (Serves dir location waiting) (fun _ => Serves dir location waiting)
      program tree swapped) :
    Writers.Sound dir location ⟨tree, swapped, some (version, program), waiting⟩ := by
  refine ⟨h.holds fun _ _ _ hserves => hserves, ?_⟩
  rintro _ _ ⟨⟩
  exact h

theorem Writers.Sound.move (h : writers.Sound (store.identityDir id) location) (next : Move) :
    (writers.move store id next).Sound (store.identityDir id) location := by
  rcases writers.move_cases store id next with heq | ⟨version, waiting, hwaiting, heq⟩ |
    ⟨version, operation, resume, hrunning, heq⟩ | ⟨version, operation, resume, below, hrunning, heq⟩
  · rw [heq]
    exact h
  · rw [heq]
    exact .of_guards (guards_put (hwaiting ▸ h.serves))
  · rw [heq]
    exact .of_guards (h.guarded version _ hrunning).call
  · rw [heq, hrunning]
    exact .of_guards ((h.guarded version _ hrunning).lose below)

theorem Writers.Sound.moves (h : writers.Sound (store.identityDir id) location)
    (schedule : List Move) :
    (writers.moves store id schedule).Sound (store.identityDir id) location := by
  induction schedule generalizing writers with
  | nil => exact h
  | cons next schedule ih => exact ih (h.move next)

theorem Writers.Sound.exists_replaced (h : writers.Sound (store.identityDir id) location)
    (hwaiting : writers.waiting = version :: waiting) :
    ∃ calls after, writers.moves store id (.start :: List.replicate calls .call) =
        ⟨after, version :: writers.swapped, some (version, .done (.ok ())), waiting⟩ ∧
      ∀ old ∈ writers.swapped.head?,
        after.Lacks (FilePath.join (store.identityDir id) old.name) := by
  obtain ⟨calls, _, after, _, hmoves, _, rfl, rfl, -, hlacks⟩ :=
    Guards.exists_calls (keeps_put (hwaiting ▸ h.serves)) waiting
  have hstart : writers.move store id .start = ⟨writers.tree, writers.swapped,
      some (version, (store.put id version.material version.name).run), waiting⟩ := by
    rw [Writers.move, hwaiting]
  refine ⟨calls, after, ?_, hlacks⟩
  rw [Writers.moves, List.foldl_cons, hstart]
  exact hmoves

theorem Writers.Sound.exists_calls (h : writers.Sound (store.identityDir id) location)
    (hwaiting : writers.waiting = version :: waiting) :
    ∃ calls after, writers.moves store id (.start :: List.replicate calls .call) =
      ⟨after, version :: writers.swapped, some (version, .done (.ok ())), waiting⟩ := by
  obtain ⟨calls, after, hmoves, -⟩ := h.exists_replaced hwaiting
  exact ⟨calls, after, hmoves⟩

variable (store id) in
theorem Writers.suffix_move (writers : Writers) (next : Move) :
    writers.swapped <:+ (writers.move store id next).swapped := by
  rcases writers.move_cases store id next with heq | ⟨_, _, -, heq⟩ |
    ⟨version, operation, _, -, heq⟩ | ⟨_, _, _, _, -, heq⟩
  · simp only [heq]
    exact List.suffix_rfl
  · simp only [heq]
    exact List.suffix_rfl
  · simp only [heq, swappedAfter]
    split
    · exact List.suffix_cons version writers.swapped
    · exact List.suffix_rfl
  · simp only [heq]
    exact List.suffix_rfl

variable (store id) in
theorem Writers.suffix_moves (writers : Writers) (schedule : List Move) :
    writers.swapped <:+ (writers.moves store id schedule).swapped := by
  induction schedule generalizing writers with
  | nil => exact List.suffix_rfl
  | cons next schedule ih => exact (writers.suffix_move store id next).trans (ih _)

/-- Writers switch to nothing but the versions that they were given. -/
structure Writers.Uses (given : List StoredVersion) (writers : Writers) : Prop where
  swapped : ∀ version ∈ writers.swapped, version ∈ given
  running : ∀ version program, writers.running = some (version, program) → version ∈ given
  waiting : ∀ version ∈ writers.waiting, version ∈ given

theorem Writers.Uses.move {given : List StoredVersion} (h : writers.Uses given) (next : Move) :
    (writers.move store id next).Uses given := by
  rcases writers.move_cases store id next with heq | ⟨version, waiting, hwaiting, heq⟩ |
    ⟨version, operation, resume, hrunning, heq⟩ | ⟨version, operation, resume, below, hrunning, heq⟩
  · rw [heq]
    exact h
  · have hgiven := hwaiting ▸ h.waiting
    rw [heq]
    refine ⟨h.swapped, ?_, fun other hmem => hgiven other (List.mem_cons_of_mem _ hmem)⟩
    rintro _ _ ⟨⟩
    exact hgiven version List.mem_cons_self
  · have hversion := h.running version _ hrunning
    rw [heq]
    refine ⟨?_, ?_, h.waiting⟩
    · intro other hmem
      simp only [swappedAfter] at hmem
      split at hmem
      · rcases List.mem_cons.mp hmem with rfl | hmem
        · exact hversion
        · exact h.swapped other hmem
      · exact h.swapped other hmem
    · rintro _ _ ⟨⟩
      exact hversion
  · rw [heq]
    exact ⟨h.swapped, h.running, h.waiting⟩

theorem Writers.Uses.moves {given : List StoredVersion} (h : writers.Uses given)
    (schedule : List Move) : (writers.moves store id schedule).Uses given := by
  induction schedule generalizing writers with
  | nil => exact h
  | cons next schedule ih => exact ih (h.move next)

theorem yields_get_some {transcript : Transcript FileOperation.interface} {material : TlsMaterial}
    (h : (store.get id).run.Yields transcript (.ok (some material))) :
    let dir := store.identityDir id
    ∃ target, transcript =
      [⟨.readLink (FilePath.join dir dataLink), .ok target⟩,
        ⟨.read (FilePath.join (FilePath.join dir target) keyFile), .ok material.keyPem⟩,
        ⟨.read (FilePath.join (FilePath.join dir target) certFile), .ok material.certPem⟩] := by
  obtain ⟨fault | target, rest, rfl, hrest⟩ := FileWork.yields_attempt_bind_iff.mp h
  · cases fault with
    | _ => cases (Program.yields_done_iff.mp hrest).2
  refine ⟨target, ?_⟩
  obtain ⟨_, heq, -⟩ | ⟨key, before, rest, rfl, hkey, hrest⟩ :=
    Program.yields_run_bind_iff.mp hrest
  · cases heq
  obtain ⟨_, heq, -⟩ | ⟨cert, before', rest, rfl, hcert, hrest⟩ :=
    Program.yields_run_bind_iff.mp hrest
  · cases heq
  rcases key with _ | key
  · cases (Program.yields_done_iff.mp hrest).2
  rcases cert with _ | cert
  · cases (Program.yields_done_iff.mp hrest).2
  obtain ⟨rfl, heq⟩ := Program.yields_done_iff.mp hrest
  cases heq
  rw [FileWork.yields_readOptional_some hkey, FileWork.yields_readOptional_some hcert]
  rfl

/-- A reader that finds something finds one version, and one that was switched to by the time that
it asked where to look. -/
theorem Writers.Sound.exists_of_answered {transcript : Transcript FileOperation.interface}
    {material : TlsMaterial} (h : writers.Sound (store.identityDir id) location)
    (hyields : (store.get id).run.Yields transcript (.ok (some material)))
    (hanswered : Answered store id writers transcript) :
    ∃ version ∈ writers.swapped, version.material = material := by
  obtain ⟨target, rfl⟩ := yields_get_some hyields
  obtain _ | ⟨schedule, hlink, hanswered⟩ := hanswered
  rw [h.serves.run_readLink] at hlink
  rcases hhead : writers.swapped.head? with _ | version
  · rw [hhead] at hlink
    cases hlink
  rw [hhead] at hlink
  cases hlink
  have hmem := List.mem_of_mem_head? hhead
  -- The version may be removed by now, but it is still known and has nothing foreign in it.
  have hsound := h.moves schedule
  replace hmem := (writers.suffix_moves store id schedule).subset hmem
  obtain _ | ⟨schedule, hkey, hanswered⟩ := hanswered
  have hkeyPem := hsound.serves.eq_of_read hmem isName_keyFile (layout_version_keyFile ..) hkey
  cases congrArg Prod.snd hkey
  replace hsound := hsound.moves schedule
  replace hmem := (Writers.suffix_moves store id _ schedule).subset hmem
  obtain _ | ⟨_, hcert, -⟩ := hanswered
  have hcertPem := hsound.serves.eq_of_read hmem isName_certFile (layout_version_certFile ..) hcert
  refine ⟨version, List.mem_of_mem_head? hhead, ?_⟩
  rcases material with ⟨key, cert⟩
  cases hkeyPem
  cases hcertPem
  rfl

/-- No reader sees a key of one version with the certificate of another. Whatever writers of an
identity have done, and wherever they were stopped, a reader that starts then and finds something
finds a version that had been switched to, however the writers go on between its calls; and a
reader that is left alone finds the version that was switched to last. -/
theorem reads_one_version (h : IsVacant (store.identityDir id) location tree made versions)
    (schedule : List Move) :
    let writers := Writers.moves store id ⟨tree, [], none, versions⟩ schedule
    (∀ transcript material, (store.get id).run.Yields transcript (.ok (some material)) →
      Answered store id writers transcript →
      ∃ version ∈ versions, version ∈ writers.swapped ∧ version.material = material) ∧
    (store.get id).Runs writers.tree (writers.swapped.head?.map StoredVersion.material)
      writers.tree := by
  intro writers
  have hsound : writers.Sound (store.identityDir id) location := h.sound.moves schedule
  have hgiven : Writers.Uses versions ⟨tree, [], none, versions⟩ :=
    ⟨(by rintro _ ⟨⟩), (by rintro _ _ ⟨⟩), fun _ hmem => hmem⟩
  have huses : writers.Uses versions := hgiven.moves schedule
  refine ⟨?_, hsound.serves.runs_get⟩
  intro transcript material hyields hanswered
  obtain ⟨version, hmem, rfl⟩ := hsound.exists_of_answered hyields hanswered
  exact ⟨version, huses.swapped version hmem, hmem, rfl⟩

namespace Sample

def first : StoredVersion := ⟨versionName (List.replicate 16 7), ⟨[1], [2]⟩⟩

def second : StoredVersion := ⟨versionName (List.replicate 16 8), ⟨[4], [5]⟩⟩

def certs : DirectoryStore := ⟨"/srv/certs/"⟩

theorem isVacant :
    ∃ location made, IsVacant (certs.identityDir mutating) location start made [first, second] := by
  have hnames : ∀ version ∈ [first, second], IsVersionName version.name := by
    intro version hmem
    simp only [List.mem_cons, List.not_mem_nil, or_false] at hmem
    rcases hmem with rfl | rfl
    · exact isVersionName_versionName rfl
    · exact isVersionName_versionName rfl
  exact isVacant_of_newRoot newRoot ⟨rfl, by decide, by decide⟩ hnames (by decide)

end Sample

theorem reads_one_version_sample :
    ∃ schedule transcript,
      let writers := Writers.moves Sample.certs Sample.mutating
        ⟨Sample.start, [], none, [Sample.first, Sample.second]⟩ schedule
      (Sample.certs.get Sample.mutating).run.Yields transcript (.ok (some ⟨[1], [2]⟩)) ∧
        Answered Sample.certs Sample.mutating writers transcript ∧
        ∃ version ∈ [Sample.first, Sample.second],
          version ∈ writers.swapped ∧ version.material = ⟨[1], [2]⟩ := by
  obtain ⟨location, made, hvacant⟩ := Sample.isVacant
  obtain ⟨calls, after, hmoves⟩ := hvacant.sound.exists_calls rfl
  obtain ⟨hreads, hlast⟩ := reads_one_version hvacant (.start :: List.replicate calls .call)
  rw [hmoves] at hreads hlast
  obtain ⟨transcript, hyields, hanswered⟩ := exists_answered Sample.certs Sample.mutating
    ⟨after, [Sample.first], some (Sample.first, .done (.ok ())), [Sample.second]⟩
    (Sample.certs.get Sample.mutating).run
  rw [hlast] at hyields
  refine ⟨.start :: List.replicate calls .call, transcript, ?_⟩
  rw [hmoves]
  exact ⟨hyields, hanswered, hreads transcript _ hyields hanswered⟩

end DirectoryStore

end CertRotation
