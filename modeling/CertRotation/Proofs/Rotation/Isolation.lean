import CertRotation.Proofs.Rotation.Fleet
import CertRotation.Proofs.Store.Sharing

namespace CertRotation

/-- A store and a publisher in memory. -/
def Collaborators.reply : Reply Collaborators
  | held, _, .get id, _ => (.ok (held.materials.get? id), held)
  | held, _, .put id material, _ =>
    (.ok (), { held with materials := held.materials.insert id material })
  | held, _, .getBundle id, _ => (.ok (held.bundles.get? id), held)
  | held, _, .putBundle id bundle, _ =>
    (.ok (), { held with bundles := held.bundles.insert id bundle })
  | held, _, _, answer => (answer, held)

/-- A store of directories that is the store and the publisher, each call without interruption. -/
def DirectoryStore.reply (store : DirectoryStore) : Reply FileTree
  | tree, _, .get id, _ => (store.get id).run.runOn tree
  | tree, random, .put id material, _ =>
    (store.put id material (versionName random)).run.runOn tree
  | tree, _, .getBundle id, _ => (store.getBundle id).run.runOn tree
  | tree, _, .putBundle id bundle, _ => (store.putBundle id bundle).run.runOn tree
  | tree, _, _, answer => (answer, tree)

/-- What is kept in memory for an identity. -/
def Collaborators.HoldsFor (id : WebhookIdentity) (held : Collaborators) (kept : Holding) : Prop :=
  held.materials.get? id = kept.material ∧ held.bundles.get? id = kept.bundle

namespace Collaborators

variable {id other : WebhookIdentity} {held : Collaborators} {kept : Holding}

theorem HoldsFor.put (h : held.HoldsFor id kept) (material : TlsMaterial) :
    HoldsFor id { held with materials := held.materials.insert id material }
      { kept with material := some material } :=
  ⟨IdentityMap.get?_insert_self .., h.2⟩

theorem HoldsFor.putBundle (h : held.HoldsFor id kept) (bundle : Octets) :
    HoldsFor id { held with bundles := held.bundles.insert id bundle }
      { kept with bundle := some bundle } :=
  ⟨h.1, IdentityMap.get?_insert_self ..⟩

theorem HoldsFor.put_of_ne (h : held.HoldsFor id kept) (hne : other ≠ id) (material : TlsMaterial) :
    HoldsFor id { held with materials := held.materials.insert other material } kept :=
  ⟨(IdentityMap.get?_insert_of_ne _ _ hne.symm).trans h.1, h.2⟩

theorem HoldsFor.putBundle_of_ne (h : held.HoldsFor id kept) (hne : other ≠ id) (bundle : Octets) :
    HoldsFor id { held with bundles := held.bundles.insert other bundle } kept :=
  ⟨h.1, (IdentityMap.get?_insert_of_ne _ _ hne.symm).trans h.2⟩

theorem separates (id : WebhookIdentity) : Separates reply id (HoldsFor id) := by
  constructor
  · intro held kept random other request answer hholds _ habout
    cases request with
    | get about =>
        obtain rfl := habout about rfl
        exact ⟨congrArg Except.ok hholds.1, hholds⟩
    | put about material =>
        obtain rfl := habout about rfl
        exact ⟨rfl, hholds.put material⟩
    | getBundle about =>
        obtain rfl := habout about rfl
        exact ⟨congrArg Except.ok hholds.2, hholds⟩
    | putBundle about bundle =>
        obtain rfl := habout about rfl
        exact ⟨rfl, hholds.putBundle bundle⟩
    | _ => exact ⟨rfl, hholds⟩
  · intro held kept random request other answer hholds _ habout _ hne
    cases request with
    | put about material =>
        obtain rfl := habout about rfl
        exact hholds.put_of_ne hne material
    | putBundle about bundle =>
        obtain rfl := habout about rfl
        exact hholds.putBundle_of_ne hne bundle
    | _ => exact hholds

end Collaborators

namespace DirectoryStore

variable {store : DirectoryStore} {tree : FileTree} {place : Location} {id other : WebhookIdentity}
  {held : Collaborators} {kept : Holding}

/-- What is kept in a tree for an identity, among what the tree has for all of them. -/
def HoldsFor (store : DirectoryStore) (place : Location) (id : WebhookIdentity) (tree : FileTree)
    (kept : Holding) : Prop :=
  ∃ held, Stores tree store.root place held [] ∧ held.HoldsFor id kept

theorem Stores.reply_of_not_isStorable (h : Stores tree store.root place held [])
    (haccepted : id.check = .ok ()) (hlong : ¬id.IsStorable) {random : Octets}
    (hrandom : random.length = 16) {request : ManagerRequest} (habout : request.IsAbout id)
    (answer : request.Answer) :
    Stores (store.reply tree random request answer).2 store.root place held [] := by
  obtain ⟨made, hrefuses, hmade⟩ := h.of_refuses haccepted hlong
  cases request with
  | get about =>
      have hsame := FileProgram.tree_eq_of_onlyAsks (store.get_onlyAsks about) tree
      exact hsame.symm ▸ h
  | put about material =>
      obtain rfl := habout about rfl
      obtain ⟨_, hchanged⟩ :=
        runOn_put_of_refuses hrefuses (isVersionName_versionName hrandom) material
      exact (congrArg Prod.snd hchanged).symm ▸ hmade
  | getBundle about =>
      have hsame := FileProgram.tree_eq_of_onlyAsks (store.getBundle_onlyAsks about) tree
      exact hsame.symm ▸ h
  | putBundle about bundle =>
      obtain rfl := habout about rfl
      obtain ⟨_, hchanged⟩ := runOn_putBundle_of_refuses hrefuses bundle
      exact (congrArg Prod.snd hchanged).symm ▸ hmade
  | _ => exact h

theorem Stores.reply_of_isStorable (h : Stores tree store.root place held [])
    (hid : id.IsStorable) {random : Octets} (hrandom : random.length = 16)
    {request : ManagerRequest} (habout : request.IsAbout id) (answer : request.Answer) :
    let next := held.reply random request answer
    (store.reply tree random request answer).1 = next.1 ∧
      Stores (store.reply tree random request answer).2 store.root place next.2 [] := by
  cases request with
  | get about =>
      obtain rfl := habout about rfl
      have hruns := h.runs_get hid
      exact ⟨congrArg Prod.fst hruns, (congrArg Prod.snd hruns) ▸ h⟩
  | put about material =>
      obtain rfl := habout about rfl
      obtain ⟨after, hruns, hafter⟩ := h.runs_put_of_uuid hid hrandom material
      exact ⟨congrArg Prod.fst hruns, (congrArg Prod.snd hruns) ▸ hafter⟩
  | getBundle about =>
      obtain rfl := habout about rfl
      have hruns := h.runs_getBundle hid
      exact ⟨congrArg Prod.fst hruns, (congrArg Prod.snd hruns) ▸ h⟩
  | putBundle about bundle =>
      obtain rfl := habout about rfl
      obtain ⟨after, hruns, hafter⟩ := h.runs_putBundle hid bundle
      exact ⟨congrArg Prod.fst hruns, (congrArg Prod.snd hruns) ▸ hafter⟩
  | _ => exact ⟨rfl, h⟩

theorem separates (hid : id.IsStorable) (place : Location) :
    Separates store.reply id (store.HoldsFor place id) := by
  have hmemory := Collaborators.separates id
  constructor
  · rintro tree kept random other request answer ⟨held, hstores, hholds⟩ hrandom habout
    obtain ⟨hanswer, hafter⟩ := hstores.reply_of_isStorable hid hrandom habout answer
    obtain ⟨hanswer', hholds'⟩ := hmemory.serves random other answer hholds hrandom habout
    exact ⟨hanswer.trans hanswer', _, hafter, hholds'⟩
  · rintro tree kept random request other answer ⟨held, hstores, hholds⟩ hrandom habout
      haccepted hne
    -- Another identity need not be storable: then its writes may still make directories above it.
    by_cases hother : other.IsStorable
    · obtain ⟨-, hafter⟩ := hstores.reply_of_isStorable hother hrandom habout answer
      exact ⟨_, hafter, hmemory.spares answer hholds hrandom habout haccepted hne⟩
    · exact ⟨held, hstores.reply_of_not_isStorable haccepted hother hrandom habout answer, hholds⟩

theorem HoldsFor.get_eq (h : store.HoldsFor place id tree kept) (hid : id.IsStorable) :
    ((store.get id).run.runOn tree).1 = .ok kept.material := by
  obtain ⟨held, hstores, hmaterial, -⟩ := h
  rw [← hmaterial, hstores.runs_get hid]

theorem HoldsFor.getBundle_eq (h : store.HoldsFor place id tree kept) (hid : id.IsStorable) :
    ((store.getBundle id).run.runOn tree).1 = .ok kept.bundle := by
  obtain ⟨held, hstores, -, hbundle⟩ := h
  rw [← hbundle, hstores.runs_getBundle hid]

end DirectoryStore

namespace Fleet

variable {ι : Type} [DecidableEq ι]

theorem start_run_of_separates {σ : Type} {reply : Reply σ} (managers : ι → RotationManager)
    (i : ι) {holds : σ → Holding → Prop} {shared : σ} {kept : Holding}
    (hreply : Separates reply (managers i).identity holds)
    (hdistinct : Function.Injective fun j => (managers j).identity)
    (haccepted : ∀ j, (managers j).identity.check = .ok ()) (met : ι → Circumstances)
    (hholds : holds shared kept) (schedule : List (Turn ι)) :
    let last := (start managers shared).run reply met schedule
    let alone := (Holding.step (met i))^[turnsOf i schedule] (.start (managers i), kept)
    last.workers i = alone.1 ∧ holds last.shared alone.2 :=
  run_of_separates (fun j => (managers j).identity) i hreply hdistinct haccepted met
    (fun j => Worker.isFor_start (managers j)) hholds schedule

/-- A manager in a fleet and the same manager alone have asked the same and are kept the same, after
as many turns. -/
theorem exists_of_separates {σ : Type} {reply : Reply σ} {managers : ι → RotationManager}
    {i : ι} {holds : σ → Holding → Prop} {shared : σ} {kept : Holding}
    (hreply : Separates reply (managers i).identity holds)
    (hdistinct : Function.Injective fun j => (managers j).identity)
    (haccepted : ∀ j, (managers j).identity.check = .ok ()) (met : ι → Circumstances)
    (hholds : holds shared kept) {schedule : List (Turn ι)} {own : List (Turn Unit)}
    (hown : own.length = turnsOf i schedule) :
    let together := (start managers shared).run reply met schedule
    let alone := (start (fun _ => managers i) shared).run reply (fun _ => met i) own
    together.workers i = alone.workers () ∧
      ∃ last, holds together.shared last ∧ holds alone.shared last := by
  have hlength : turnsOf () own = own.length := List.countP_eq_length.mpr (by simp)
  obtain ⟨hworker, hlast⟩ :=
    start_run_of_separates managers i hreply hdistinct haccepted met hholds schedule
  obtain ⟨hworker', hlast'⟩ := start_run_of_separates (fun _ : Unit => managers i) () hreply
    (Function.injective_of_subsingleton _) (fun _ => haccepted i) (fun _ => met i) hholds own
  rw [hlength, hown] at hworker' hlast'
  exact ⟨hworker.trans hworker'.symm, _, hlast, hlast'⟩

/-- Managers of different identities that are accepted do not interfere. Each of them asks what it
would ask alone, turn by turn, and is answered the same; so its cycles end with the same outcomes,
failures and authorities, and what is kept for its identity is the same. This holds of collaborators
in memory, and of a store of directories if the names of the identity are not too long, whatever
the names of the other identities and the names of versions. -/
theorem run_eq_run_alone {managers : ι → RotationManager}
    (hdistinct : Function.Injective fun j => (managers j).identity)
    (haccepted : ∀ j, (managers j).identity.check = .ok ()) (met : ι → Circumstances) (i : ι)
    {schedule : List (Turn ι)} {own : List (Turn Unit)}
    (hown : own.length = turnsOf i schedule) :
    let id := (managers i).identity
    (∀ held : Collaborators,
      let together := (start managers held).run Collaborators.reply met schedule
      let alone := (start (fun _ => managers i) held).run Collaborators.reply (fun _ => met i) own
      together.workers i = alone.workers () ∧
        together.shared.materials.get? id = alone.shared.materials.get? id ∧
        together.shared.bundles.get? id = alone.shared.bundles.get? id) ∧
    ∀ (store : DirectoryStore) (place : Location) (tree : FileTree) (held : Collaborators),
      DirectoryStore.Stores tree store.root place held [] → id.IsStorable →
      let together := (start managers tree).run store.reply met schedule
      let alone := (start (fun _ => managers i) tree).run store.reply (fun _ => met i) own
      together.workers i = alone.workers () ∧
        ((store.get id).run.runOn together.shared).1 =
          ((store.get id).run.runOn alone.shared).1 ∧
        ((store.getBundle id).run.runOn together.shared).1 =
          ((store.getBundle id).run.runOn alone.shared).1 := by
  constructor
  · intro held
    obtain ⟨hworker, last, ⟨hmaterial, hbundle⟩, hmaterial', hbundle'⟩ :=
      exists_of_separates (Collaborators.separates _) hdistinct haccepted met
        (⟨rfl, rfl⟩ : held.HoldsFor (managers i).identity ⟨_, _⟩) hown
    exact ⟨hworker, hmaterial.trans hmaterial'.symm, hbundle.trans hbundle'.symm⟩
  · intro store place tree held hstores hid
    obtain ⟨hworker, last, htogether, halone⟩ :=
      exists_of_separates (DirectoryStore.separates hid place) hdistinct haccepted met
        ⟨held, hstores, (⟨rfl, rfl⟩ : held.HoldsFor (managers i).identity ⟨_, _⟩)⟩ hown
    exact ⟨hworker, (htogether.get_eq hid).trans (halone.get_eq hid).symm,
      (htogether.getBundle_eq hid).trans (halone.getBundle_eq hid).symm⟩

namespace Sample

open DirectoryStore.Sample (mutating validating newRoot)

abbrev tree : FileTree := DirectoryStore.Sample.start

/-- A store in a directory that does not exist yet. -/
def store : DirectoryStore := ⟨"/srv/certs/"⟩

def generation : Generation :=
  ⟨⟨[1], [2]⟩, [3], .ofWindow [] ⟨0, 0⟩ ⟨10, 0⟩ ⟨"ca", []⟩ ⟨"ca", []⟩⟩

def writer (id : WebhookIdentity) : RotationManager :=
  { RotationManager.new id (.ofSeconds 3600) with pending := some generation }

/-- The clock stands still, nothing is cancelled, and no key can be made. -/
def met : Circumstances
  | _, .now => ⟨5, 0⟩
  | _, .jitter _ => .zero
  | _, .newKey => .error .keyGeneration
  | _, .newSerial => .ofRandom 1
  | _, .get _ => .ok none
  | _, .put _ _ => .ok ()
  | _, .getBundle _ => .ok none
  | _, .putBundle _ _ => .ok ()
  | _, .isCancelled => false
  | _, .sleep _ => false
  | _, .report _ => ()

/-- Every version gets the same name. -/
def turn {ι : Type} (i : ι) : Turn ι := ⟨i, List.replicate 16 7, rfl⟩

def pair (first second : RotationManager) : Bool → RotationManager
  | false => first
  | true => second

theorem injective_pair {first second : RotationManager} (h : first.identity ≠ second.identity) :
    Function.Injective fun j => (pair first second j).identity := by
  rintro (_ | _) (_ | _) heq
  · rfl
  · exact absurd heq h
  · exact absurd heq.symm h
  · rfl

def siblings : Bool → RotationManager := pair (writer mutating) (writer validating)

/-- Both write what is pending, one between the requests of the other. -/
def schedule : List (Turn Bool) :=
  [true, false, false, true, false, true, false, true, false, true].map turn

theorem stores : DirectoryStore.Stores tree store.root ["srv", "certs"] .empty [] :=
  DirectoryStore.stores_of_newRoot newRoot []

end Sample

theorem run_eq_run_alone_sample :
    let own := List.replicate 5 (Sample.turn ())
    let inMemory := (start Sample.siblings .empty).run Collaborators.reply (fun _ => Sample.met)
      Sample.schedule
    let onFiles := (start Sample.siblings Sample.tree).run Sample.store.reply
      (fun _ => Sample.met) Sample.schedule
    Function.Injective (fun j => (Sample.siblings j).identity) ∧
      (∀ j, (Sample.siblings j).identity.check = .ok ()) ∧
      own.length = turnsOf true Sample.schedule ∧
      DirectoryStore.Stores Sample.tree Sample.store.root ["srv", "certs"] .empty [] ∧
      (Sample.siblings true).identity.IsStorable ∧
      (inMemory.workers true).ended.map (·.1.toOption) = [some .rotated] ∧
      inMemory.workers true = ((start (fun _ => Sample.siblings true) .empty).run
        Collaborators.reply (fun _ => Sample.met) own).workers () ∧
      onFiles.workers true = ((start (fun _ => Sample.siblings true) Sample.tree).run
        Sample.store.reply (fun _ => Sample.met) own).workers () := by
  have hdistinct : Function.Injective fun j => (Sample.siblings j).identity :=
    Sample.injective_pair (by decide)
  have haccepted : ∀ j, (Sample.siblings j).identity.check = .ok () := by
    rintro (_ | _)
    · rfl
    · rfl
  have hid : (Sample.siblings true).identity.IsStorable := ⟨rfl, by decide, by decide⟩
  have hown : (List.replicate 5 (Sample.turn ())).length = turnsOf true Sample.schedule := rfl
  obtain ⟨hmemory, hfiles⟩ :=
    run_eq_run_alone hdistinct haccepted (fun _ => Sample.met) true hown
  exact ⟨hdistinct, haccepted, rfl, Sample.stores, hid, by decide +kernel, (hmemory _).1,
    (hfiles _ _ _ _ Sample.stores hid).1⟩

namespace Sample

open DirectoryStore.Sample (mutating newRoot)

theorem utf8ByteSize_replicate (count : Nat) :
    (String.ofList (List.replicate count 'a')).utf8ByteSize = count := by
  rw [utf8ByteSize_ofList_of_ascii, List.length_replicate]
  intro c hmem
  rw [List.eq_of_mem_replicate hmem]
  rfl

theorem check_replicate (count : Nat) :
    LabelField.name.check (String.ofList (List.replicate (count + 1) 'a')) = .ok () := by
  have hempty : String.ofList (List.replicate (count + 1) 'a') ≠ "" :=
    FilePath.ofList_ne_empty (List.cons_ne_nil _ _)
  have hfirst : (List.replicate (count + 1) 'a').head? = some 'a' := rfl
  have hlast : (List.replicate (count + 1) 'a').getLast? = some 'a' := by
    simp [List.getLast?_replicate]
  have hlabel :
      WebhookIdentity.isLabel (String.ofList (List.replicate (count + 1) 'a')) = true := by
    rw [WebhookIdentity.isLabel, String.toList_ofList, hfirst, hlast]
    simp [WebhookIdentity.isLabelChar]
  rw [LabelField.check, if_neg hempty, if_pos hlabel]

/-- The name has one letter too many for the name of a directory. -/
def overlong : WebhookIdentity := ⟨String.ofList (List.replicate 256 'a'), "system", .mutating⟩

theorem check_overlong : overlong.check = .ok () :=
  bind_eq_ok_iff.mpr ⟨(), check_replicate 255, rfl⟩

theorem not_short_overlong : FileTree.maxNameOctets < overlong.name.utf8ByteSize :=
  (utf8ByteSize_replicate 256).symm ▸ Nat.lt_succ_self 255

/-- Managers of two services in one space. -/
def neighbours : Bool → RotationManager :=
  pair (.new overlong (.ofSeconds 3600)) (writer mutating)

theorem isStorable_neighbour : (neighbours true).identity.IsStorable :=
  ⟨rfl, by decide, by decide⟩

theorem injective_neighbours : Function.Injective fun j => (neighbours j).identity := by
  apply injective_pair
  apply ne_of_apply_ne fun id => id.name.utf8ByteSize
  exact ne_of_eq_of_ne (utf8ByteSize_replicate 256) (by decide)

theorem check_neighbours : ∀ j, (neighbours j).identity.check = .ok () := by
  rintro (_ | _)
  · exact check_overlong
  · rfl

theorem prefix_ended_alone :
    [(.error .keyGeneration, neighbours false)] <+:
      (((start (fun _ => neighbours false) tree).run store.reply (fun _ => met)
        (List.replicate 5 (turn ()))).workers ()).ended := by
  have hget : (store.get overlong).run.runOn tree = (.ok none, tree) :=
    DirectoryStore.runs_get_of_fails
      (DirectoryStore.fails_of_lacks newRoot.lacks check_overlong)
  have hcycle : (neighbours false).cycle.Yields
      [⟨.isCancelled, false⟩, ⟨.get overlong, .ok none⟩, ⟨.now, ⟨5, 0⟩⟩,
        ⟨.newKey, .error .keyGeneration⟩]
      (.error .keyGeneration, neighbours false) := .ask (.ask (.ask (.ask (.done _))))
  apply prefix_ended_of_yields rfl hcycle (by decide)
  intro exchange hmem past
  simp only [List.mem_cons, List.not_mem_nil, or_false] at hmem
  rcases hmem with rfl | rfl | rfl | rfl
  · rfl
  · exact hget
  · rfl
  · rfl

theorem prefix_ended_together :
    ∃ fault, [(.error (.storeIo fault), neighbours false)] <+:
      (((start neighbours tree).run store.reply (fun _ => met)
        (List.replicate 3 (turn true) ++ List.replicate 5 (turn false))).workers false).ended := by
  have hstart : store.HoldsFor ["srv", "certs"] (neighbours true).identity tree ⟨none, none⟩ :=
    ⟨.empty, stores, rfl, rfl⟩
  obtain ⟨-, held, hstores, hmaterial, -⟩ := start_run_of_separates neighbours true
    (DirectoryStore.separates isStorable_neighbour ["srv", "certs"]) injective_neighbours
    check_neighbours (fun _ => met) hstart (List.replicate 3 (turn true))
  obtain ⟨fault, hget⟩ : ∃ fault, (store.get overlong).run.runOn _ = (.error (.storeIo fault), _) :=
    ⟨_, DirectoryStore.runOn_get_of_fails (hstores.fails_of_neighbour isStorable_neighbour
      hmaterial check_overlong rfl not_short_overlong)⟩
  have hworker : ((start neighbours tree).run store.reply (fun _ => met)
      (List.replicate 3 (turn true))).workers false = .start (neighbours false) := by
    apply workers_run_of_ne
    intro later hmem
    rw [List.eq_of_mem_replicate hmem]
    exact Bool.false_ne_true
  have hcycle : (neighbours false).cycle.Yields
      [⟨.isCancelled, false⟩, ⟨.get overlong, .error (.storeIo fault)⟩]
      (.error (.storeIo fault), neighbours false) := .ask (.ask (.done _))
  rw [run_append]
  refine ⟨fault, prefix_ended_of_yields hworker hcycle (Nat.le_add_left 3 2) ?_⟩
  intro exchange hmem past
  simp only [List.mem_cons, List.not_mem_nil, or_false] at hmem
  rcases hmem with rfl | rfl
  · rfl
  · exact hget

end Sample

/-- A name that is too long for a directory, in a space where another manager has written. The first
cycle fails because the store cannot be read; alone, it fails because no key can be made. -/
theorem run_ne_run_alone_of_overlong :
    Function.Injective (fun j => (Sample.neighbours j).identity) ∧
      (∀ j, (Sample.neighbours j).identity.check = .ok ()) ∧
      DirectoryStore.Stores Sample.tree Sample.store.root ["srv", "certs"] .empty [] ∧
      ∃ (schedule : List (Turn Bool)) (own : List (Turn Unit)),
        own.length = turnsOf false schedule ∧
        (((start Sample.neighbours Sample.tree).run Sample.store.reply (fun _ => Sample.met)
          schedule).workers false).ended.map Prod.fst ≠
        (((start (fun _ => Sample.neighbours false) Sample.tree).run Sample.store.reply
          (fun _ => Sample.met) own).workers ()).ended.map Prod.fst := by
  refine ⟨Sample.injective_neighbours, Sample.check_neighbours, Sample.stores,
    List.replicate 3 (Sample.turn true) ++ List.replicate 5 (Sample.turn false),
    List.replicate 5 (Sample.turn ()), rfl, ?_⟩
  intro heq
  obtain ⟨fault, htogether⟩ := Sample.prefix_ended_together
  have halone := Sample.prefix_ended_alone.map Prod.fst
  replace htogether := htogether.map Prod.fst
  rw [heq] at htogether
  cases (List.prefix_of_prefix_length_le htogether halone (Nat.le_refl 1)).eq_of_length rfl

end Fleet

end CertRotation
