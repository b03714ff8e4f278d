import CertRotation.Proofs.Fallible
import CertRotation.Proofs.Store.Calls
import CertRotation.Proofs.WebhookIdentity

namespace CertRotation

/-- An identity that is accepted, and whose names are short enough for the names of directories. -/
structure WebhookIdentity.IsStorable (id : WebhookIdentity) : Prop where
  accepted : id.check = .ok ()
  nameIsShort : id.name.utf8ByteSize ≤ FileTree.maxNameOctets
  spaceIsShort : id.space.utf8ByteSize ≤ FileTree.maxNameOctets

namespace DirectoryStore

theorem isPart_of_check {field : LabelField} {value : String} (h : field.check value = .ok ()) :
    FilePath.IsPart value := by
  obtain ⟨hempty, hchars⟩ := LabelField.check_eq_ok h
  have hother {c : Char} (hmem : c ∈ value.toList)
      (hc : WebhookIdentity.isLabelChar c = false) : False :=
    WebhookIdentity.ne_of_isLabelChar (hchars c hmem) hc rfl
  refine ⟨hempty, fun hmem => hother hmem (by decide), ?_, ?_⟩
  · rintro rfl
    exact hother (c := '.') (by decide) (by decide)
  · rintro rfl
    exact hother (c := '.') (by decide) (by decide)

theorem isName_of_check {field : LabelField} {value : String} (h : field.check value = .ok ())
    (hshort : value.utf8ByteSize ≤ FileTree.maxNameOctets) : FilePath.IsName value :=
  have hpart := isPart_of_check h
  ⟨hpart.ne_empty, hpart.noSlash, hpart.ne_dot, hpart.ne_dots, hshort⟩

variable {id other : WebhookIdentity}

theorem isName_name (h : id.IsStorable) : FilePath.IsName id.name := by
  obtain ⟨_, hname, _⟩ := bind_eq_ok_iff.mp h.accepted
  exact isName_of_check hname h.nameIsShort

theorem isName_space (h : id.IsStorable) : FilePath.IsName id.space := by
  obtain ⟨_, _, hspace⟩ := bind_eq_ok_iff.mp h.accepted
  exact isName_of_check hspace h.spaceIsShort

/-- The directory of an identity, from the root on. -/
def folder (id : WebhookIdentity) : Location := [id.space, id.name, id.kind.name]

/-- The directory of an identity and those above it. -/
def folders (id : WebhookIdentity) : List Location :=
  [[id.space], [id.space, id.name], folder id]

theorem append_pair (place : Location) (first second : String) :
    place ++ [first, second] = place ++ [first] ++ [second] :=
  (List.append_assoc place [first] [second]).symm

theorem append_folder (place : Location) (id : WebhookIdentity) :
    place ++ folder id = place ++ [id.space] ++ [id.name] ++ [id.kind.name] := by
  rw [← append_pair, List.append_assoc]
  rfl

theorem folder_injective {rest rest' : Location} (h : folder id ++ rest = folder other ++ rest') :
    id = other ∧ rest = rest' := by
  rcases id with ⟨name, space, kind⟩
  rcases other with ⟨name', space', kind'⟩
  simp only [folder, List.cons_append, List.nil_append, List.cons.injEq] at h
  obtain ⟨rfl, rfl, hkind, rfl⟩ := h
  have hkind' : kind = kind' := by
    revert hkind
    cases kind <;> cases kind' <;> decide
  rw [hkind']
  exact ⟨rfl, rfl⟩

variable {tree made : FileTree} {root : String} {place : Location}
  {versions : WebhookIdentity → Option StoredVersion} {bundles : WebhookIdentity → Option Octets}

/-- What a tree has of every identity at and below the place of the root. -/
structure Holds (tree : FileTree) (place : Location)
    (versions : WebhookIdentity → Option StoredVersion)
    (bundles : WebhookIdentity → Option Octets) : Prop where
  above : ∀ {id : WebhookIdentity}, id.IsStorable → ∀ location ∈ folders id,
    tree.entry? (place ++ location) = none ∨ tree.entry? (place ++ location) = some .directory
  stands : ∀ {id : WebhookIdentity}, id.IsStorable → ∀ location ∈ folders id,
    tree.entry? (place ++ location) = none → versions id = none ∧ bundles id = none
  inside : ∀ {id : WebhookIdentity}, id.IsStorable → ∀ rest, rest ≠ [] →
    tree.entry? (place ++ folder id ++ rest) = layout (versions id) (bundles id) rest

theorem Holds.shows (h : Holds tree place versions bundles) (hopens : tree.Opens root place)
    (hid : id.IsStorable) :
    Shows tree (identityDir ⟨root⟩ id) (place ++ folder id) (versions id) (bundles id) := by
  have hspace := isName_space hid
  have hname := isName_name hid
  have hkind := isName_kind id.kind
  rcases h.above hid [id.space] (by simp [folders]) with hfirst | hfirst
  · exact .inl ⟨((hopens.lacks_join hspace hfirst).join hname).join hkind,
      h.stands hid _ (by simp [folders]) hfirst⟩
  have hopens := hopens.join hspace hfirst
  rcases h.above hid [id.space, id.name] (by simp [folders]) with hsecond | hsecond
  · rw [append_pair] at hsecond
    exact .inl ⟨(hopens.lacks_join hname hsecond).join hkind,
      h.stands hid _ (by simp [folders]) (append_pair place .. ▸ hsecond)⟩
  rw [append_pair] at hsecond
  have hopens := hopens.join hname hsecond
  rcases h.above hid (folder id) (by simp [folders]) with hthird | hthird
  · rw [append_folder] at hthird
    exact .inl ⟨hopens.lacks_join hkind hthird,
      h.stands hid _ (by simp [folders]) (append_folder place id ▸ hthird)⟩
  rw [append_folder] at hthird
  have hopens := hopens.join hkind hthird
  rw [← append_folder] at hopens hthird
  refine .inr ⟨hopens, ?_⟩
  funext rest
  rcases eq_or_ne rest [] with rfl | hrest
  · rw [FileTree.under, List.append_nil]
    exact hthird
  · exact h.inside hid rest hrest

theorem Holds.makes (h : Holds made place versions bundles) (hmakes : tree.Makes root place made)
    (hid : id.IsStorable) :
    ∃ after, tree.Makes (identityDir ⟨root⟩ id) (place ++ folder id) after ∧
      after.entry? = fun key =>
        if ∃ location ∈ folders id, key = place ++ location then some .directory
        else made.entry? key := by
  have hentry := fun location hmem => h.above hid location hmem
  obtain ⟨first, hmakes, hfirst⟩ := hmakes.join (isName_space hid)
    (hentry [id.space] (by simp [folders]))
  obtain ⟨second, hmakes, hsecond⟩ := hmakes.join (isName_name hid) (by
    rw [hfirst, Function.update_of_ne (by simp), ← append_pair]
    exact hentry _ (by simp [folders]))
  obtain ⟨third, hmakes, hthird⟩ := hmakes.join (isName_kind id.kind) (by
    rw [hsecond, Function.update_of_ne (by simp), hfirst, Function.update_of_ne (by simp),
      ← append_folder]
    exact hentry _ (by simp [folders]))
  refine ⟨third, ?_, ?_⟩
  · rw [append_folder]
    exact hmakes
  · funext key
    rw [hthird, hsecond, hfirst, ← append_folder, ← append_pair, Function.update_apply,
      Function.update_apply, Function.update_apply]
    simp only [folders, List.mem_cons, List.not_mem_nil, or_false, exists_eq_or_imp,
      exists_eq_left]
    grind

theorem length_of_mem_folders {location : Location} (h : location ∈ folders id) :
    location.length ≤ 3 := by
  simp only [folders, List.mem_cons, List.not_mem_nil, or_false] at h
  rcases h with rfl | rfl | rfl <;> simp [folder]

theorem ne_nil_of_mem_folders {location : Location} (h : location ∈ folders id) :
    location ≠ [] := by
  simp only [folders, List.mem_cons, List.not_mem_nil, or_false] at h
  rcases h with rfl | rfl | rfl <;> exact List.cons_ne_nil _ _

theorem append_folder_ne (place : Location) {rest : Location} (h : rest ≠ []) :
    ¬∃ location ∈ folders id, place ++ folder other ++ rest = place ++ location := by
  rintro ⟨location, hmem, heq⟩
  rw [List.append_assoc, List.append_right_inj] at heq
  have hlength := length_of_mem_folders hmem
  have hpos := List.length_pos_iff.mpr h
  rw [← heq, List.length_append] at hlength
  simp only [folder, List.length_cons, List.length_nil] at hlength
  omega

theorem not_isBelow_folder (place : Location) {location : Location} (h : location.length ≤ 3) :
    FileTree.isBelow (place ++ location) (place ++ folder id) = false := by
  rw [Bool.eq_false_iff]
  intro hbelow
  obtain ⟨rest, hrest, heq⟩ := FileTree.isBelow_iff.mp hbelow
  rw [List.append_assoc, List.append_right_inj] at heq
  have hpos := List.length_pos_iff.mpr hrest
  rw [heq, List.length_append] at h
  simp only [folder, List.length_cons, List.length_nil] at h
  omega

/-- Another layout below the directory of one identity is another layout of that identity alone. -/
theorem Holds.of_changes {between after : FileTree} {current : Option StoredVersion}
    {bundle : Option Octets} (h : Holds made place versions bundles)
    (hbetween : between.entry? = fun key =>
      if ∃ location ∈ folders id, key = place ++ location then some .directory
      else made.entry? key)
    (hchanges : between.Changes (place ++ folder id) (layout current bundle) after) :
    Holds after place (Function.update versions id current)
      (Function.update bundles id bundle) := by
  have houtside : ∀ location : Location, location.length ≤ 3 →
      after.entry? (place ++ location) =
        if location ∈ folders id then some .directory else made.entry? (place ++ location) := by
    intro location hlength
    rw [hchanges.outside _ (not_isBelow_folder place hlength), hbetween]
    simp
  constructor
  · intro other hother location hmem
    rw [houtside location (length_of_mem_folders hmem)]
    split
    · exact .inr rfl
    · exact h.above hother location hmem
  · intro other hother location hmem hnone
    rw [houtside location (length_of_mem_folders hmem)] at hnone
    split at hnone
    · cases hnone
    · rename_i hnot
      have hne : other ≠ id := by
        rintro rfl
        exact hnot hmem
      rw [Function.update_of_ne hne, Function.update_of_ne hne]
      exact h.stands hother location hmem hnone
  · intro other hother rest hrest
    rcases eq_or_ne other id with rfl | hne
    · rw [Function.update_self, Function.update_self, ← hchanges.inside]
      rfl
    · rw [Function.update_of_ne hne, Function.update_of_ne hne, ← h.inside hother rest hrest,
        hchanges.outside, hbetween]
      · exact if_neg (append_folder_ne place hrest)
      · rw [Bool.eq_false_iff]
        intro hbelow
        obtain ⟨rest', -, heq⟩ := FileTree.isBelow_iff.mp hbelow
        rw [List.append_assoc, List.append_assoc, List.append_right_inj] at heq
        exact hne (folder_injective heq).1

theorem Holds.of_update {after : FileTree} {location : Location}
    (h : Holds made place versions bundles) (hlength : location.length ≤ 3)
    (hafter : after.entry? =
      Function.update made.entry? (place ++ location) (some .directory)) :
    Holds after place versions bundles := by
  constructor
  · intro other hother key hmem
    rw [hafter, Function.update_apply]
    split
    · exact .inr rfl
    · exact h.above hother key hmem
  · intro other hother key hmem hnone
    rw [hafter, Function.update_apply] at hnone
    split at hnone
    · cases hnone
    · exact h.stands hother key hmem hnone
  · intro other hother rest hrest
    rw [hafter, Function.update_of_ne, h.inside hother rest hrest]
    intro heq
    rw [List.append_assoc, List.append_right_inj] at heq
    have hpos := List.length_pos_iff.mpr hrest
    rw [← heq, List.length_append] at hlength
    simp only [folder, List.length_cons, List.length_nil] at hlength
    omega

/-- What a tree has of every identity, be it that the root is still to be made. -/
def Represents (tree : FileTree) (root : String) (place : Location)
    (versions : WebhookIdentity → Option StoredVersion)
    (bundles : WebhookIdentity → Option Octets) : Prop :=
  ∃ made, tree.Makes root place made ∧ Holds made place versions bundles ∧
    (made = tree ∨ ∀ id, versions id = none ∧ bundles id = none)

theorem Represents.shows (h : Represents tree root place versions bundles)
    (hid : id.IsStorable) :
    Shows tree (identityDir ⟨root⟩ id) (place ++ folder id) (versions id) (bundles id) := by
  obtain ⟨made, hmakes, hholds, hcases⟩ := h
  by_cases hmade : made = tree
  · subst made
    exact hholds.shows hmakes.opens hid
  · have hlacks := hmakes.lacks_or.resolve_right hmade
    exact .inl ⟨((hlacks.join (isName_space hid)).join (isName_name hid)).join
      (isName_kind id.kind), hcases.resolve_left hmade id⟩

theorem Represents.makes (h : Represents tree root place versions bundles)
    (hid : id.IsStorable) :
    ∃ made, tree.Makes (identityDir ⟨root⟩ id) (place ++ folder id) made ∧
      made.under (place ++ folder id) = layout (versions id) (bundles id) ∧
      ∀ {current bundle after},
        made.Changes (place ++ folder id) (layout current bundle) after →
        Represents after root place (Function.update versions id current)
          (Function.update bundles id bundle) := by
  obtain ⟨top, htop, hholds, -⟩ := h
  obtain ⟨made, hmakes, hmade⟩ := hholds.makes htop hid
  refine ⟨made, hmakes, ?_, ?_⟩
  · funext rest
    rcases eq_or_ne rest [] with rfl | hrest
    · rw [FileTree.under, List.append_nil]
      exact hmakes.opens.stands
    · rw [FileTree.under, hmade, ← hholds.inside hid rest hrest]
      exact if_neg (append_folder_ne place hrest)
  · intro current bundle after hchanges
    have hopens : after.Opens root place := by
      apply htop.opens.congr
      intro key hkey
      rw [hchanges.outside, hmade]
      · apply if_neg
        rintro ⟨location, hmem, rfl⟩
        exact FileTree.ne_append_of_not_isBelow hkey (ne_nil_of_mem_folders hmem) rfl
      · rw [Bool.eq_false_iff]
        intro hbelow
        obtain ⟨rest, -, rfl⟩ := FileTree.isBelow_iff.mp hbelow
        rw [List.append_assoc] at hkey
        exact FileTree.ne_append_of_not_isBelow hkey (List.cons_ne_nil _ _) rfl
    exact ⟨after, hopens.makes, hholds.of_changes hmade hchanges, .inl rfl⟩

/-- A write for an identity that is accepted, but has a name that is too long, makes directories at
most, and no identity has anything else afterwards. -/
theorem Represents.refuses (h : Represents tree root place versions bundles)
    (haccepted : id.check = .ok ()) (hlong : ¬id.IsStorable) :
    ∃ made, tree.Refuses (identityDir ⟨root⟩ id) made ∧
      Represents made root place versions bundles := by
  obtain ⟨_, hname, hspace⟩ := bind_eq_ok_iff.mp haccepted
  have hkind := (isName_kind id.kind).isPart
  obtain ⟨top, htop, hholds, -⟩ := h
  by_cases hshort : id.space.utf8ByteSize ≤ FileTree.maxNameOctets
  · have hlong' : FileTree.maxNameOctets < id.name.utf8ByteSize :=
      Nat.not_le.mp fun hle => hlong ⟨haccepted, hle, hshort⟩
    -- Other identities in the same space may have been written.
    have hneighbour : LabelField.name.check "a" = .ok () := rfl
    have hspaceEntry : top.entry? (place ++ [id.space]) = none ∨
        top.entry? (place ++ [id.space]) = some .directory := by
      have hstorable : WebhookIdentity.IsStorable ⟨"a", id.space, id.kind⟩ :=
        ⟨bind_eq_ok_iff.mpr ⟨(), hneighbour, hspace⟩, Nat.le_add_left 1 254, hshort⟩
      exact hholds.above hstorable [id.space] (by simp [folders])
    obtain ⟨first, hmakes, hfirst⟩ := htop.join (isName_of_check hspace hshort) hspaceEntry
    refine ⟨first, (hmakes.refuses_join (isPart_of_check hname) hlong').join hkind, first, ?_,
      hholds.of_update (by simp) hfirst, .inl rfl⟩
    exact (htop.opens.of_changes
      (FileTree.changes_of_update (List.cons_ne_nil _ _) hfirst)).makes
  · have hrefuses := htop.refuses_join (isPart_of_check hspace) (Nat.not_le.mp hshort)
    exact ⟨top, (hrefuses.join (isPart_of_check hname)).join hkind, top, htop.opens.makes, hholds,
      .inl rfl⟩

end DirectoryStore

end CertRotation
