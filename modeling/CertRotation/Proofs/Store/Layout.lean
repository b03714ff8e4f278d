import CertRotation.Proofs.Files.Path
import CertRotation.Proofs.Files.Tree
import CertRotation.Store.Directory

namespace CertRotation

namespace DirectoryStore

/-- The key material that is served, and the name of the version that holds it. -/
structure StoredVersion where
  name : String
  material : TlsMaterial

/-- The names in the directory of an identity that are not versions. -/
def fixedNames : List String :=
  [dataLink, dataLinkDraft, keyFile, certFile, bundleFile, bundleDraft]

/-- A name that a version can have. -/
structure IsVersionName (name : String) : Prop where
  isName : FilePath.IsName name
  notFixed : name ∉ fixedNames

/-- What stands at and below the directory of an identity. -/
def layout (current : Option StoredVersion) (bundle : Option Octets) :
    Location → Option FileEntry
  | [] => some .directory
  | [name] =>
    if name = bundleFile then bundle.map (.file · false)
    else current.bind fun version =>
      if name = dataLink then some (.link version.name)
      else if name = keyFile then some (.link (FilePath.join dataLink keyFile))
      else if name = certFile then some (.link (FilePath.join dataLink certFile))
      else if name = version.name then some .directory
      else none
  | [directory, name] =>
    current.bind fun version =>
      if directory ≠ version.name then none
      else if name = keyFile then some (.file version.material.keyPem true)
      else if name = certFile then some (.file version.material.certPem false)
      else none
  | _ => none

theorem IsVersionName.ne_of_mem {version name : String} (h : IsVersionName version)
    (hmem : name ∈ fixedNames) : version ≠ name := by
  rintro rfl
  exact h.notFixed hmem

theorem isName_of_mem_fixedNames {name : String} (h : name ∈ fixedNames) :
    FilePath.IsName name := by
  simp only [fixedNames, List.mem_cons, List.not_mem_nil, or_false] at h
  rcases h with rfl | rfl | rfl | rfl | rfl | rfl
  all_goals constructor <;> decide

theorem isName_dataLink : FilePath.IsName dataLink := isName_of_mem_fixedNames (by decide)

theorem isName_dataLinkDraft : FilePath.IsName dataLinkDraft :=
  isName_of_mem_fixedNames (by decide)

theorem isName_keyFile : FilePath.IsName keyFile := isName_of_mem_fixedNames (by decide)

theorem isName_certFile : FilePath.IsName certFile := isName_of_mem_fixedNames (by decide)

theorem isName_bundleFile : FilePath.IsName bundleFile := isName_of_mem_fixedNames (by decide)

theorem isName_bundleDraft : FilePath.IsName bundleDraft := isName_of_mem_fixedNames (by decide)

variable {current : Option StoredVersion} {bundle : Option Octets} {name : String}

theorem layout_none_none {rest : Location} (h : rest ≠ []) : layout none none rest = none := by
  rcases rest with _ | ⟨first, _ | ⟨second, _ | ⟨third, rest⟩⟩⟩
  · exact absurd rfl h
  · simp [layout]
  · rfl
  · rfl

theorem layout_dataLink (current : Option StoredVersion) (bundle : Option Octets) :
    layout current bundle [dataLink] = current.map fun version => .link version.name := by
  rcases current with _ | version
  · rfl
  · rfl

theorem layout_dataLink_ne_directory (current : Option StoredVersion) (bundle : Option Octets) :
    layout current bundle [dataLink] ≠ some .directory := by
  rw [layout_dataLink]
  rcases current with _ | version
  · simp
  · simp

theorem layout_bundleFile (current : Option StoredVersion) (bundle : Option Octets) :
    layout current bundle [bundleFile] = bundle.map (.file · false) := rfl

theorem layout_readerLink {file : String} (hfile : file ∈ [keyFile, certFile])
    (current : Option StoredVersion) (bundle : Option Octets) :
    layout current bundle [file] =
      current.map fun _ => .link (FilePath.join dataLink file) := by
  simp only [List.mem_cons, List.not_mem_nil, or_false] at hfile
  rcases hfile with rfl | rfl
  · rcases current with _ | version
    · rfl
    · rfl
  · rcases current with _ | version
    · rfl
    · rfl

theorem layout_readerLink_cases {file : String} (hfile : file ∈ [keyFile, certFile])
    (current : Option StoredVersion) (bundle : Option Octets) :
    layout current bundle [file] = none ∨
      layout current bundle [file] = some (.link (FilePath.join dataLink file)) := by
  rw [layout_readerLink hfile]
  rcases current with _ | version
  · exact .inl rfl
  · exact .inr rfl

theorem layout_version {version : StoredVersion} (hversion : IsVersionName version.name) :
    layout (some version) bundle [version.name] = some .directory := by
  have hfixed := hversion.notFixed
  simp only [fixedNames, List.mem_cons, List.not_mem_nil, or_false, not_or] at hfixed
  obtain ⟨hdata, -, hkey, hcert, hbundle, -⟩ := hfixed
  simp [layout, hdata, hkey, hcert, hbundle]

theorem layout_version_keyFile (version : StoredVersion) (bundle : Option Octets) :
    layout (some version) bundle [version.name, keyFile] =
      some (.file version.material.keyPem true) := by
  simp [layout]

theorem layout_version_certFile (version : StoredVersion) (bundle : Option Octets) :
    layout (some version) bundle [version.name, certFile] =
      some (.file version.material.certPem false) := by
  have hne : certFile ≠ keyFile := by decide
  simp [layout, hne]

theorem layout_of_unused (hname : name ∉ [dataLink, keyFile, certFile, bundleFile])
    (hcurrent : ∀ version ∈ current, version.name ≠ name) (rest : List String) :
    layout current bundle (name :: rest) = none := by
  simp only [List.mem_cons, List.not_mem_nil, or_false, not_or] at hname
  obtain ⟨hdata, hkey, hcert, hbundle⟩ := hname
  rcases current with _ | version
  · rcases rest with _ | ⟨second, _ | ⟨third, rest⟩⟩
    · simp [layout, hbundle]
    · rfl
    · rfl
  · have hne : name ≠ version.name := (hcurrent version rfl).symm
    rcases rest with _ | ⟨second, _ | ⟨third, rest⟩⟩
    · simp [layout, hdata, hkey, hcert, hbundle, hne]
    · simp [layout, hne]
    · rfl

theorem layout_of_isVersionName {version : String} (hversion : IsVersionName version)
    (hcurrent : ∀ old ∈ current, old.name ≠ version) (rest : List String) :
    layout current bundle (version :: rest) = none := by
  apply layout_of_unused _ hcurrent
  intro hmem
  have hsubset : [dataLink, keyFile, certFile, bundleFile] ⊆ fixedNames := by decide
  exact hversion.notFixed (hsubset hmem)

theorem layout_dataLinkDraft (hcurrent : ∀ version ∈ current, IsVersionName version.name)
    (rest : List String) : layout current bundle (dataLinkDraft :: rest) = none := by
  apply layout_of_unused (by decide)
  rintro version hmem heq
  apply (hcurrent version hmem).notFixed
  rw [heq]
  decide

theorem layout_bundleDraft (hcurrent : ∀ version ∈ current, IsVersionName version.name)
    (rest : List String) : layout current bundle (bundleDraft :: rest) = none := by
  apply layout_of_unused (by decide)
  rintro version hmem heq
  apply (hcurrent version hmem).notFixed
  rw [heq]
  decide

open Function (update)

/-- The entries after a version has been written. -/
def withVersion (version : StoredVersion) (entries : Location → Option FileEntry) :
    Location → Option FileEntry :=
  update (update (update (update entries
    [version.name] (some .directory))
    [version.name, keyFile] (some (.file version.material.keyPem false)))
    [version.name, keyFile] (some (.file version.material.keyPem true)))
    [version.name, certFile] (some (.file version.material.certPem false))

/-- The entries after the link to the version that is served has been replaced. -/
def withDataLink (name : String) (entries : Location → Option FileEntry) :
    Location → Option FileEntry :=
  update (update (update entries
    [dataLinkDraft] (some (.link name)))
    [dataLinkDraft] none)
    [dataLink] (some (.link name))

/-- The entries with a link for readers. -/
def withReaderLink (file : String) (entries : Location → Option FileEntry) :
    Location → Option FileEntry :=
  update entries [file] (some (.link (FilePath.join dataLink file)))

/-- The entries with a link for readers, unless something else stands in its place. -/
def withReaderEntry (file : String) (entries : Location → Option FileEntry) :
    Location → Option FileEntry :=
  if entries [file] = none then withReaderLink file entries else entries

/-- The entries without a version. -/
def withoutVersion (current : Option StoredVersion) (entries : Location → Option FileEntry) :
    Location → Option FileEntry := fun location =>
  match current with
  | some old => if [old.name] <+: location then none else entries location
  | none => entries location

/-- The entries after the bundle has been replaced. -/
def withBundle (bundle : Octets) (entries : Location → Option FileEntry) :
    Location → Option FileEntry :=
  update (update (update entries
    [bundleDraft] (some (.file bundle false)))
    [bundleDraft] none)
    [bundleFile] (some (.file bundle false))

theorem notMem_fixedNames_iff :
    name ∉ fixedNames ↔ name ≠ "..data" ∧ name ≠ "..data_tmp" ∧ name ≠ "tls.key" ∧
      name ≠ "tls.crt" ∧ name ≠ "ca-bundle.crt" ∧ name ≠ "ca-bundle.tmp" := by
  simp [fixedNames, dataLink, dataLinkDraft, keyFile, certFile, bundleFile, bundleDraft]

theorem withVersion_of_ne {version : StoredVersion} (h : name ≠ version.name)
    (entries : Location → Option FileEntry) (rest : List String) :
    withVersion version entries (name :: rest) = entries (name :: rest) := by
  simp [withVersion, h]

theorem withVersion_of_unused {version : StoredVersion} {entries : Location → Option FileEntry}
    (hversion : IsVersionName version.name)
    (hunused : ∀ rest, entries (version.name :: rest) = none) (rest : List String) :
    withVersion version entries (version.name :: rest) =
      layout (some version) none (version.name :: rest) := by
  rcases rest with _ | ⟨second, _ | ⟨third, rest⟩⟩
  · rw [layout_version hversion]
    simp [withVersion]
  · have hne : keyFile ≠ certFile := by decide
    rcases eq_or_ne second keyFile with rfl | hkey
    · simp [withVersion, layout, hne]
    · simp [withVersion, layout, hkey, hunused, Function.update_apply]
  · simp [withVersion, layout, hunused]

theorem withDataLink_of_ne {version : String} (hdata : name ≠ dataLink)
    (hdraft : name ≠ dataLinkDraft) (entries : Location → Option FileEntry)
    (rest : List String) :
    withDataLink version entries (name :: rest) = entries (name :: rest) := by
  simp [withDataLink, hdata, hdraft]

theorem withDataLink_of_reader {version file : String} (hfile : file ∈ [keyFile, certFile])
    (entries : Location → Option FileEntry) (rest : List String) :
    withDataLink version entries (file :: rest) = entries (file :: rest) := by
  simp only [List.mem_cons, List.not_mem_nil, or_false] at hfile
  rcases hfile with rfl | rfl
  · exact withDataLink_of_ne (by decide) (by decide) entries rest
  · exact withDataLink_of_ne (by decide) (by decide) entries rest

theorem withDataLink_self (version : String) (entries : Location → Option FileEntry) :
    withDataLink version entries [dataLink] = some (.link version) := by
  rw [withDataLink, Function.update_self]

theorem withDataLink_update_draft (version : String) (entries : Location → Option FileEntry) :
    withDataLink version (update entries [dataLinkDraft] none) = withDataLink version entries := by
  simp only [withDataLink, Function.update_idem]

theorem withReaderLink_of_ne {file : String} (h : name ≠ file)
    (entries : Location → Option FileEntry) (rest : List String) :
    withReaderLink file entries (name :: rest) = entries (name :: rest) := by
  simp [withReaderLink, h]

theorem withReaderEntry_of_ne {file : String} (h : name ≠ file)
    (entries : Location → Option FileEntry) (rest : List String) :
    withReaderEntry file entries (name :: rest) = entries (name :: rest) := by
  rw [withReaderEntry]
  split
  · exact withReaderLink_of_ne h entries rest
  · rfl

theorem withReaderEntry_eq {file : String} {entries : Location → Option FileEntry}
    (h : entries [file] = none ∨
      entries [file] = some (.link (FilePath.join dataLink file))) :
    withReaderEntry file entries = withReaderLink file entries := by
  rw [withReaderEntry]
  split
  · rfl
  · rename_i hstands
    rw [withReaderLink, ← h.resolve_left hstands, Function.update_eq_self]

theorem withReaderEntry_self (file : String) (entries : Location → Option FileEntry)
    (rest : List String) :
    withReaderEntry file entries (file :: rest) =
      if entries [file] = none ∧ rest = [] then some (.link (FilePath.join dataLink file))
      else entries (file :: rest) := by
  by_cases hnone : entries [file] = none
  · simp [withReaderEntry, withReaderLink, hnone, Function.update_apply]
  · simp [withReaderEntry, hnone]

theorem withReaderEntries_reader {file : String} (hfile : file ∈ [keyFile, certFile])
    (entries : Location → Option FileEntry) (rest : List String) :
    withReaderEntry certFile (withReaderEntry keyFile entries) (file :: rest) =
      withReaderEntry file entries (file :: rest) := by
  have hne : certFile ≠ keyFile := by decide
  simp only [List.mem_cons, List.not_mem_nil, or_false] at hfile
  rcases hfile with rfl | rfl
  · exact withReaderEntry_of_ne hne.symm _ rest
  · rw [withReaderEntry_self, withReaderEntry_self, withReaderEntry_of_ne hne,
      withReaderEntry_of_ne hne]

/-- The changes of a call that replaces the key material lead to the next layout. -/
theorem layout_put {version : StoredVersion} (hversion : IsVersionName version.name)
    (hcurrent : ∀ old ∈ current, IsVersionName old.name ∧ old.name ≠ version.name) :
    withoutVersion current (withReaderLink certFile (withReaderLink keyFile
        (withDataLink version.name (withVersion version (layout current bundle))))) =
      layout (some version) bundle := by
  have hfixed := notMem_fixedNames_iff.mp hversion.notFixed
  have hfixed' : ∀ old ∈ current, _ := fun old hmem =>
    notMem_fixedNames_iff.mp (hcurrent old hmem).1.notFixed
  funext location
  simp only [withoutVersion, withReaderLink, withDataLink, withVersion, Function.update_apply]
  -- Every change is at most two names below the directory.
  rcases location with _ | ⟨first, _ | ⟨second, _ | ⟨third, rest⟩⟩⟩
  · rcases current with _ | old
    · simp [layout]
    · simp [layout]
  · rcases current with _ | old
    · simp only [layout, dataLink, dataLinkDraft, keyFile, certFile, bundleFile, List.cons.injEq]
      grind
    · have hne := (hcurrent old rfl).2
      have hold := hfixed' old rfl
      simp only [layout, dataLink, dataLinkDraft, keyFile, certFile, bundleFile, List.cons.injEq,
        List.cons_prefix_cons]
      grind
  · rcases current with _ | old
    · simp only [layout, dataLink, dataLinkDraft, keyFile, certFile, List.cons.injEq]
      grind
    · have hne := (hcurrent old rfl).2
      have hold := hfixed' old rfl
      simp only [layout, dataLink, dataLinkDraft, keyFile, certFile, List.cons.injEq,
        List.cons_prefix_cons]
      grind
  · rcases current with _ | old
    · simp [layout]
    · simp [layout]

theorem layout_putBundle (hcurrent : ∀ version ∈ current, IsVersionName version.name)
    (next : Octets) : withBundle next (layout current bundle) = layout current (some next) := by
  funext location
  rw [withBundle, Function.update_idem, Function.update_apply, Function.update_apply]
  rcases location with _ | ⟨first, rest⟩
  · simp [layout]
  by_cases hfile : first :: rest = [bundleFile]
  · rw [if_pos hfile, hfile]
    simp [layout]
  rw [if_neg hfile]
  by_cases hdraft : first :: rest = [bundleDraft]
  · rw [if_pos hdraft, hdraft, layout_bundleDraft hcurrent]
  rw [if_neg hdraft]
  rcases rest with _ | ⟨second, _ | ⟨third, rest⟩⟩
  · have hne : first ≠ bundleFile := fun heq => hfile (by rw [heq])
    simp only [layout, if_neg hne]
  · rfl
  · rfl

end DirectoryStore

end CertRotation
