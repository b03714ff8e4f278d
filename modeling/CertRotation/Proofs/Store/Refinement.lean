import CertRotation.Proofs.Files.NewRoot
import CertRotation.Proofs.Rotation.Collaborators
import CertRotation.Proofs.Store.Identities
import CertRotation.Proofs.Store.VersionName

namespace CertRotation

/-- A call of the store of key material or of the publisher of bundles. Random octets name the
version that a call writes. -/
inductive StoreCall where
  | put (id : WebhookIdentity) (material : TlsMaterial) (random : Octets)
  | get (id : WebhookIdentity)
  | putBundle (id : WebhookIdentity) (bundle : Octets)
  | getBundle (id : WebhookIdentity)

/-- What a call gives back. -/
inductive StoreAnswer where
  | done
  | material (found : Option TlsMaterial)
  | bundle (found : Option Octets)
deriving DecidableEq

namespace StoreCall

/-- The identity that a call is about. -/
def identity : StoreCall → WebhookIdentity
  | put id _ _ | get id | putBundle id _ | getBundle id => id

/-- The octets that name the version of a call. -/
def random? : StoreCall → Option Octets
  | put _ _ random => some random
  | _ => none

end StoreCall

namespace Collaborators

def empty : Collaborators := ⟨.empty, .empty⟩

/-- The answer to a call, and what is held after it. -/
def answer (held : Collaborators) : StoreCall → StoreAnswer × Collaborators
  | .put id material _ => (.done, { held with materials := held.materials.insert id material })
  | .get id => (.material (held.materials.get? id), held)
  | .putBundle id bundle => (.done, { held with bundles := held.bundles.insert id bundle })
  | .getBundle id => (.bundle (held.bundles.get? id), held)

/-- The answers to calls one after another. -/
def answers : Collaborators → List StoreCall → List StoreAnswer
  | _, [] => []
  | held, call :: rest => (held.answer call).1 :: (held.answer call).2.answers rest

end Collaborators

namespace DirectoryStore

def answer (store : DirectoryStore) : StoreCall → FileWork StoreAnswer
  | .put id material random => do
    store.put id material (versionName random)
    return .done
  | .get id => do return .material (← store.get id)
  | .putBundle id bundle => do
    store.putBundle id bundle
    return .done
  | .getBundle id => do return .bundle (← store.getBundle id)

/-- Makes calls one after another, those that fail included. -/
def answers (store : DirectoryStore) : List StoreCall →
    FileProgram (List (Except Failure StoreAnswer))
  | [] => pure []
  | call :: rest => do
    let first ← (store.answer call).run
    let others ← store.answers rest
    return first :: others

/-- Calls that a store promises to serve: they are about identities that it accepts, and each
version gets a name of its own from sixteen octets. -/
structure Servable (calls : List StoreCall) : Prop where
  isStorable : ∀ call ∈ calls, call.identity.IsStorable
  isUuid : ∀ random ∈ calls.filterMap StoreCall.random?, random.length = 16
  isFresh : ((calls.filterMap StoreCall.random?).map versionName).Nodup

variable {tree : FileTree} {root : String} {place : Location} {held : Collaborators}
  {unused : List Octets} {id : WebhookIdentity}

/-- A tree has what is held. The names of its versions are not among those of later versions. -/
def Stores (tree : FileTree) (root : String) (place : Location) (held : Collaborators)
    (unused : List Octets) : Prop :=
  ∃ versions : WebhookIdentity → Option StoredVersion,
    Represents tree root place versions held.bundles.get? ∧
      (∀ id, held.materials.get? id = (versions id).map StoredVersion.material) ∧
      ∀ id, ∀ version ∈ versions id,
        IsVersionName version.name ∧ version.name ∉ unused.map versionName

theorem Stores.runs_get (h : Stores tree root place held unused) (hid : id.IsStorable) :
    (DirectoryStore.get ⟨root⟩ id).Runs tree (held.materials.get? id) tree := by
  obtain ⟨versions, hrepresents, hmaterials, hnames⟩ := h
  rw [hmaterials id]
  exact DirectoryStore.runs_get (hrepresents.shows hid) fun version hmem =>
    (hnames id version hmem).1

theorem Stores.runs_getBundle (h : Stores tree root place held unused) (hid : id.IsStorable) :
    (DirectoryStore.getBundle ⟨root⟩ id).Runs tree (held.bundles.get? id) tree := by
  obtain ⟨versions, hrepresents, -, -⟩ := h
  exact DirectoryStore.runs_getBundle (hrepresents.shows hid)

theorem get?_insert_eq_update {α : Type} (map : IdentityMap α) (id : WebhookIdentity)
    (value : α) : (map.insert id value).get? = Function.update map.get? id (some value) := by
  funext other
  rcases eq_or_ne other id with rfl | hne
  · rw [Function.update_self, IdentityMap.get?_insert_self]
  · rw [Function.update_of_ne hne, IdentityMap.get?_insert_of_ne map value hne]

theorem Represents.runs_putBundle {versions : WebhookIdentity → Option StoredVersion}
    {bundles : WebhookIdentity → Option Octets}
    (h : Represents tree root place versions bundles)
    (hnames : ∀ version ∈ versions id, IsVersionName version.name) (hid : id.IsStorable)
    (bundle : Octets) :
    ∃ after, (DirectoryStore.putBundle ⟨root⟩ id bundle).Runs tree () after ∧
      Represents after root place versions (Function.update bundles id (some bundle)) := by
  obtain ⟨made, hmakes, hmade, hnext⟩ := h.makes hid
  obtain ⟨after, hruns, hchanges⟩ := DirectoryStore.runs_putBundle hmakes hmade hnames bundle
  have hafter := hnext hchanges
  rw [Function.update_eq_self] at hafter
  exact ⟨after, hruns, hafter⟩

theorem Stores.runs_putBundle (h : Stores tree root place held unused) (hid : id.IsStorable)
    (bundle : Octets) :
    ∃ after, (DirectoryStore.putBundle ⟨root⟩ id bundle).Runs tree () after ∧
      Stores after root place { held with bundles := held.bundles.insert id bundle } unused := by
  obtain ⟨versions, hrepresents, hmaterials, hnames⟩ := h
  obtain ⟨after, hruns, hafter⟩ :=
    hrepresents.runs_putBundle (fun version hmem => (hnames id version hmem).1) hid bundle
  rw [← get?_insert_eq_update] at hafter
  exact ⟨after, hruns, versions, hafter, hmaterials, hnames⟩

theorem stores_of_represents {versions : WebhookIdentity → Option StoredVersion}
    {version : StoredVersion}
    (hrepresents : Represents tree root place (Function.update versions id (some version))
      held.bundles.get?)
    (hmaterials : ∀ id, held.materials.get? id = (versions id).map StoredVersion.material)
    (hnames : ∀ id, ∀ version ∈ versions id,
      IsVersionName version.name ∧ version.name ∉ unused.map versionName)
    (hversion : IsVersionName version.name) (hfresh : version.name ∉ unused.map versionName) :
    Stores tree root place { held with materials := held.materials.insert id version.material }
      unused := by
  refine ⟨Function.update versions id (some version), hrepresents, ?_, ?_⟩
  · intro other
    rw [get?_insert_eq_update]
    rcases eq_or_ne other id with rfl | hne
    · rw [Function.update_self, Function.update_self]
      rfl
    · rw [Function.update_of_ne hne, Function.update_of_ne hne]
      exact hmaterials other
  · intro other stored hmem
    rcases eq_or_ne other id with rfl | hne
    · rw [Function.update_self] at hmem
      cases hmem
      exact ⟨hversion, hfresh⟩
    · rw [Function.update_of_ne hne] at hmem
      exact hnames other stored hmem

theorem Stores.runs_put {random : Octets} (h : Stores tree root place held (random :: unused))
    (hid : id.IsStorable) (huuid : random.length = 16)
    (hfresh : versionName random ∉ unused.map versionName) (material : TlsMaterial) :
    ∃ after, (DirectoryStore.put ⟨root⟩ id material (versionName random)).Runs tree () after ∧
      Stores after root place { held with materials := held.materials.insert id material }
        unused := by
  obtain ⟨versions, hrepresents, hmaterials, hnames⟩ := h
  obtain ⟨version, rfl, hname⟩ : ∃ version : StoredVersion,
      version.material = material ∧ version.name = versionName random :=
    ⟨⟨versionName random, material⟩, rfl, rfl⟩
  have hversion : IsVersionName version.name := hname ▸ isVersionName_versionName huuid
  rw [List.map_cons, ← hname] at hnames
  rw [← hname] at hfresh ⊢
  have hcurrent : ∀ old ∈ versions id, IsVersionName old.name ∧ old.name ≠ version.name := by
    intro old hmem
    obtain ⟨hold, hnew⟩ := hnames id old hmem
    refine ⟨hold, ?_⟩
    intro heq
    exact hnew (heq ▸ List.mem_cons_self)
  obtain ⟨made, hmakes, hmade, hnext⟩ := hrepresents.makes hid
  obtain ⟨after, hruns, hchanges⟩ :=
    DirectoryStore.runs_put hmakes hmade (hrepresents.shows hid) hversion hcurrent
  have hafter := hnext hchanges
  rw [Function.update_eq_self] at hafter
  refine ⟨after, hruns, stores_of_represents hafter hmaterials ?_ hversion hfresh⟩
  intro other stored hmem
  obtain ⟨hstored, hnew⟩ := hnames other stored hmem
  exact ⟨hstored, fun hlater => hnew (List.mem_cons_of_mem _ hlater)⟩

/-- One call: the answer is the one from memory, and the tree has what is held afterwards. -/
theorem Stores.runs_answer {call : StoreCall} {rest : List StoreCall}
    (h : Stores tree root place held ((call :: rest).filterMap StoreCall.random?))
    (hcalls : Servable (call :: rest)) :
    ∃ after, (DirectoryStore.answer ⟨root⟩ call).Runs tree (held.answer call).1 after ∧
      Stores after root place (held.answer call).2 (rest.filterMap StoreCall.random?) := by
  have hid := hcalls.isStorable call List.mem_cons_self
  cases call with
  | put id material random =>
      have hfresh := (List.nodup_cons.mp hcalls.isFresh).1
      obtain ⟨after, hruns, hstores⟩ :=
        h.runs_put hid (hcalls.isUuid random List.mem_cons_self) hfresh material
      exact ⟨after, hruns.bind (FileWork.runs_pure _ after), hstores⟩
  | get id => exact ⟨tree, (h.runs_get hid).bind (FileWork.runs_pure _ tree), h⟩
  | putBundle id bundle =>
      obtain ⟨after, hruns, hstores⟩ := h.runs_putBundle hid bundle
      exact ⟨after, hruns.bind (FileWork.runs_pure _ after), hstores⟩
  | getBundle id => exact ⟨tree, (h.runs_getBundle hid).bind (FileWork.runs_pure _ tree), h⟩

theorem Servable.tail {call : StoreCall} {rest : List StoreCall} (h : Servable (call :: rest)) :
    Servable rest := by
  have hsubset : rest.filterMap StoreCall.random? <:+
      (call :: rest).filterMap StoreCall.random? := by
    exact (List.suffix_cons call rest).filterMap _
  refine ⟨?_, ?_, ?_⟩
  · exact fun later hmem => h.isStorable later (List.mem_cons_of_mem call hmem)
  · exact fun random hmem => h.isUuid random (hsubset.subset hmem)
  · exact h.isFresh.sublist (hsubset.sublist.map _)

theorem Stores.answers_eq {calls : List StoreCall}
    (h : Stores tree root place held (calls.filterMap StoreCall.random?))
    (hcalls : Servable calls) :
    ((DirectoryStore.answers ⟨root⟩ calls).runOn tree).1 = (held.answers calls).map .ok := by
  induction calls generalizing tree held with
  | nil => rfl
  | cons call rest ih =>
      obtain ⟨after, hruns, hstores⟩ := h.runs_answer hcalls
      rw [DirectoryStore.answers, FileProgram.runOn_bind, hruns, FileProgram.runOn_bind,
        FileProgram.runOn_pure, Collaborators.answers, List.map_cons, ← ih hstores hcalls.tail]

theorem stores_of_newRoot {made : FileTree} (h : tree.NewRoot root place made)
    (unused : List Octets) : Stores tree root place .empty unused := by
  have hnone : ∀ rest, rest ≠ [] → made.entry? (place ++ rest) = none :=
    FileTree.hasEntries_eq_false_iff.mp h.isEmpty
  refine ⟨fun _ => none, ⟨made, h.toMakes, ⟨?_, ?_, ?_⟩, .inr ?_⟩, ?_, ?_⟩
  · intro id _ location hmem
    exact .inl (hnone location (ne_nil_of_mem_folders hmem))
  · intro id _ location _ _
    exact ⟨rfl, rfl⟩
  · intro id _ rest hrest
    rw [List.append_assoc, hnone (folder id ++ rest) (List.cons_ne_nil _ _)]
    exact (layout_none_none hrest).symm
  · intro id
    exact ⟨rfl, rfl⟩
  · intro id
    rfl
  · intro id version hmem
    cases hmem

/-- A store of directories refines a store in memory: from a root that does not exist, every call of
a sequence gives what the same call gives in memory. -/
theorem answers_eq_of_newRoot {store : DirectoryStore} {made : FileTree} {calls : List StoreCall}
    (hroot : tree.NewRoot store.root place made) (hcalls : Servable calls) :
    ((store.answers calls).runOn tree).1 = (Collaborators.empty.answers calls).map .ok :=
  (stores_of_newRoot hroot _).answers_eq hcalls

namespace Sample

def start : FileTree := ⟨[(["srv"], .directory)]⟩

/-- The tree with a directory for the root. -/
def made : FileTree := ⟨[(["srv", "certs"], .directory), (["srv"], .directory)]⟩

def mutating : WebhookIdentity := ⟨"hook", "system", .mutating⟩

def validating : WebhookIdentity := ⟨"hook", "system", .validating⟩

/-- Two versions for one identity, and a bundle for it and another one. -/
def calls : List StoreCall :=
  [.get mutating,
    .put mutating ⟨[1], [2]⟩ (List.replicate 16 7),
    .putBundle validating [3],
    .put mutating ⟨[4], [5]⟩ (List.replicate 16 8),
    .putBundle mutating [6],
    .get mutating,
    .getBundle mutating,
    .get validating,
    .getBundle validating]

theorem newRoot : start.NewRoot "/srv/certs/" ["srv", "certs"] made := by
  constructor
  · rfl
  · rfl
  · rfl
  · rfl

theorem servable : Servable calls := by
  have hmutating : mutating.IsStorable := ⟨rfl, by decide, by decide⟩
  have hvalidating : validating.IsStorable := ⟨rfl, by decide, by decide⟩
  constructor
  · intro call hmem
    have hidentity : call.identity = mutating ∨ call.identity = validating := by
      revert call
      decide
    rcases hidentity with h | h
    · rw [h]
      exact hmutating
    · rw [h]
      exact hvalidating
  · decide
  · decide

end Sample

theorem answers_eq_of_newRoot_sample :
    ((DirectoryStore.answers ⟨"/srv/certs/"⟩ Sample.calls).runOn Sample.start).1 =
      [.ok (.material none), .ok .done, .ok .done, .ok .done, .ok .done,
        .ok (.material (some ⟨[4], [5]⟩)), .ok (.bundle (some [6])), .ok (.material none),
        .ok (.bundle (some [3]))] :=
  answers_eq_of_newRoot Sample.newRoot Sample.servable

end DirectoryStore

end CertRotation
