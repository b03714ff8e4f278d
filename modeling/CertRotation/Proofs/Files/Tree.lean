import CertRotation.Files.Tree
import Mathlib.Logic.Function.Basic

namespace CertRotation

namespace FileTree

theorem lookup_filter (keep : Location → Bool) (entries : List (Location × FileEntry))
    (location : Location) :
    (entries.filter fun e => keep e.1).lookup location =
      if keep location then entries.lookup location else none := by
  induction entries with
  | nil => simp
  | cons entry rest ih =>
      rcases entry with ⟨key, value⟩
      by_cases hkey : location = key
      · subst key
        by_cases hkeep : keep location = true
        · simp [hkeep]
        · simp [hkeep, ih]
      · have hbeq : (location == key) = false := beq_false_of_ne hkey
        by_cases hkeep : keep key = true
        · simp [hkeep, List.lookup_cons, hbeq, ih]
        · simp [hkeep, List.lookup_cons, hbeq, ih]

theorem entry?_of_ne_nil (tree : FileTree) {location : Location} (h : location ≠ []) :
    tree.entry? location = tree.entries.lookup location := by
  exact entry?.eq_2 tree location h

theorem ne_directory_of_missing {tree : FileTree} {location : Location}
    (h : tree.entry? location = none) : tree.entry? location ≠ some .directory := by
  rw [h]
  simp

theorem ne_nil_of_entry?_ne {tree : FileTree} {location : Location}
    (h : tree.entry? location ≠ some .directory) : location ≠ [] := by
  rintro rfl
  exact h rfl

theorem entry?_erase (tree : FileTree) {location : Location} (h : location ≠ []) :
    entry? (tree.erase location) = Function.update tree.entry? location none := by
  funext other
  rcases eq_or_ne other [] with rfl | hother
  · rw [Function.update_of_ne h.symm]
    rfl
  · rw [entry?_of_ne_nil _ hother, erase, lookup_filter (· != location)]
    rcases eq_or_ne other location with rfl | hne
    · rw [Function.update_self]
      simp
    · rw [Function.update_of_ne hne, if_pos (bne_iff_ne.mpr hne), entry?_of_ne_nil _ hother]

theorem entry?_insert (tree : FileTree) {location : Location} (h : location ≠ [])
    (entry : FileEntry) :
    entry? (tree.insert location entry) = Function.update tree.entry? location (some entry) := by
  funext other
  rcases eq_or_ne other location with rfl | hne
  · rw [Function.update_self, entry?_of_ne_nil _ h, insert, List.lookup_cons_self]
  · rw [Function.update_of_ne hne]
    rcases eq_or_ne other [] with rfl | hother
    · rfl
    · have herase := congrFun (tree.entry?_erase h) other
      rw [Function.update_of_ne hne, entry?_of_ne_nil _ hother] at herase
      rw [entry?_of_ne_nil _ hother, insert, List.lookup_cons, beq_false_of_ne hne]
      exact herase

theorem insert_keeps {tree : FileTree} {location key : Location} {entry new : FileEntry}
    (hmissing : tree.entry? location = none) (hkey : tree.entry? key = some entry) :
    entry? (tree.insert location new) key = some entry := by
  have hne := ne_nil_of_entry?_ne (ne_directory_of_missing hmissing)
  rw [entry?_insert tree hne, Function.update_of_ne, hkey]
  rintro rfl
  rw [hmissing] at hkey
  cases hkey

theorem isBelow_iff {location ancestor : Location} :
    isBelow location ancestor = true ↔ ∃ rest, rest ≠ [] ∧ location = ancestor ++ rest := by
  rw [isBelow, Bool.and_eq_true, List.isPrefixOf_iff_prefix, bne_iff_ne]
  constructor
  · rintro ⟨⟨rest, rfl⟩, hne⟩
    refine ⟨rest, ?_, rfl⟩
    rintro rfl
    exact hne (List.append_nil ancestor)
  · rintro ⟨rest, hrest, rfl⟩
    refine ⟨List.prefix_append ancestor rest, ?_⟩
    intro heq
    exact hrest (List.append_right_eq_self.mp heq)

theorem not_isBelow_self (location : Location) : isBelow location location = false := by
  simp [isBelow]

theorem isBelow_append_cons (location : Location) (name : String) (rest : List String) :
    isBelow (location ++ name :: rest) location = true :=
  isBelow_iff.mpr ⟨name :: rest, List.cons_ne_nil _ _, rfl⟩

theorem entry?_clear (tree : FileTree) (ancestor : Location) :
    entry? (tree.clear ancestor) =
      fun location => if isBelow location ancestor then none else tree.entry? location := by
  funext location
  rcases eq_or_ne location [] with rfl | hne
  · have hnot : isBelow [] ancestor = false := by
      rcases ancestor with _ | ⟨name, rest⟩
      · rfl
      · rfl
    rw [hnot]
    rfl
  · rw [entry?_of_ne_nil _ hne, clear, lookup_filter fun key => !isBelow key ancestor,
      entry?_of_ne_nil _ hne]
    rcases isBelow location ancestor with _ | _
    · rfl
    · rfl

theorem entry?_clear_eq_some_iff {tree : FileTree} {ancestor location : Location}
    {entry : FileEntry} :
    entry? (tree.clear ancestor) location = some entry ↔
      isBelow location ancestor = false ∧ tree.entry? location = some entry := by
  rw [entry?_clear]
  by_cases hbelow : isBelow location ancestor = true
  · simp [hbelow]
  · simp [hbelow]

theorem entry?_erase_clear (tree : FileTree) {ancestor : Location} (h : ancestor ≠ []) :
    entry? ((tree.clear ancestor).erase ancestor) = fun location =>
      if ancestor <+: location then none else tree.entry? location := by
  funext location
  rw [entry?_erase _ h]
  rcases eq_or_ne location ancestor with rfl | hne
  · rw [Function.update_self, if_pos List.prefix_rfl]
  · rw [Function.update_of_ne hne, entry?_clear]
    simp [isBelow, hne]

/-- Where an entry is after the entries at and below one location have moved to another. -/
def movedTo (origin place location : Location) : Location :=
  if origin.isPrefixOf location then place ++ location.drop origin.length else location

theorem movedTo_self (origin place : Location) : movedTo origin place origin = place := by
  simp [movedTo]

theorem movedTo_of_not_at_or_below {origin place location : Location} (h : ¬origin <+: location) :
    movedTo origin place location = location := by
  simp [movedTo, h]

theorem lookup_move {entries : List (Location × FileEntry)} {origin place : Location}
    (hne : origin ≠ place) (hbelow : ∀ rest, rest ≠ [] → entries.lookup (origin ++ rest) = none)
    (location : Location) :
    ((entries.filter (·.1 != place)).map fun e => (movedTo origin place e.1, e.2)).lookup
        location =
      if location = place then entries.lookup origin
      else if location = origin then none
      else entries.lookup location := by
  induction entries with
  | nil => simp
  | cons entry rest ih =>
      rcases entry with ⟨key, value⟩
      have hkey : ∀ more, more ≠ [] → key ≠ origin ++ more := by
        rintro more hmore rfl
        have hnone := hbelow more hmore
        rw [List.lookup_cons_self] at hnone
        cases hnone
      have hrest : ∀ more, more ≠ [] → rest.lookup (origin ++ more) = none := by
        intro more hmore
        have hnone := hbelow more hmore
        rw [List.lookup_cons, beq_false_of_ne (hkey more hmore).symm] at hnone
        exact hnone
      have ih := ih hrest
      rcases eq_or_ne key place with rfl | hplace
      · rw [List.filter_cons_of_neg (by simp), ih, List.lookup_cons, List.lookup_cons,
          beq_false_of_ne hne]
        split
        · rfl
        · rename_i hlocation
          rw [beq_false_of_ne hlocation]
      · rw [List.filter_cons_of_pos (by simpa using hplace), List.map_cons]
        rcases eq_or_ne key origin with rfl | horigin
        · rw [movedTo_self, List.lookup_cons_self, List.lookup_cons, List.lookup_cons, ih]
          rcases eq_or_ne location place with rfl | hlocation
          · rw [beq_self_eq_true, if_pos rfl, if_pos rfl]
          · rw [beq_false_of_ne hlocation, if_neg hlocation, if_neg hlocation]
            rcases eq_or_ne location key with rfl | hother
            · rw [if_pos rfl, if_pos rfl]
            · rw [if_neg hother, if_neg hother, beq_false_of_ne hother]
        · have hapart : ¬origin <+: key := by
            rintro ⟨more, rfl⟩
            rcases eq_or_ne more [] with rfl | hmore
            · exact horigin (List.append_nil origin)
            · exact hkey more hmore rfl
          rw [movedTo_of_not_at_or_below hapart, List.lookup_cons, List.lookup_cons,
            List.lookup_cons, beq_false_of_ne horigin.symm, ih]
          rcases eq_or_ne location key with rfl | hlocation
          · rw [beq_self_eq_true]
            simp only [hplace, horigin, if_false]
          · rw [beq_false_of_ne hlocation]

theorem hasEntries_eq_false_iff {tree : FileTree} {location : Location} :
    tree.hasEntries location = false ↔
      ∀ rest, rest ≠ [] → tree.entry? (location ++ rest) = none := by
  have hlookup : ∀ rest, rest ≠ [] →
      tree.entry? (location ++ rest) = tree.entries.lookup (location ++ rest) := by
    intro rest hrest
    exact entry?_of_ne_nil tree (List.append_ne_nil_of_right_ne_nil location hrest)
  rw [hasEntries, List.any_eq_false]
  constructor
  · intro h rest hrest
    rw [hlookup rest hrest, List.lookup_eq_none_iff]
    intro entry hmem
    rw [bne_iff_ne]
    intro heq
    exact h entry hmem (isBelow_iff.mpr ⟨rest, hrest, heq.symm⟩)
  · intro h entry hmem hbelow
    obtain ⟨rest, hrest, hkey⟩ := isBelow_iff.mp hbelow
    have hnone := h rest hrest
    rw [hlookup rest hrest, List.lookup_eq_none_iff] at hnone
    exact bne_iff_ne.mp (hnone entry hmem) hkey.symm

theorem find_of_locate {tree : FileTree} {path : String} {followLast : Bool} {found : Location}
    (h : tree.locate path followLast = .ok found) :
    tree.find path followLast =
      match tree.entry? found with
      | some entry => .ok (found, entry)
      | none => .error .notFound := by
  rw [find, h]
  rfl

theorem find_eq_ok_iff {tree : FileTree} {path : String} {followLast : Bool}
    {location : Location} {entry : FileEntry} :
    tree.find path followLast = .ok (location, entry) ↔
      tree.locate path followLast = .ok location ∧ tree.entry? location = some entry := by
  rcases hlocate : tree.locate path followLast with fault | found
  · rw [find, hlocate]
    constructor
    · intro h
      cases h
    · rintro ⟨h, -⟩
      cases h
  · rw [find_of_locate hlocate]
    constructor
    · intro h
      split at h
      · rename_i heq
        cases h
        exact ⟨rfl, heq⟩
      · cases h
    · rintro ⟨hfound, hentry⟩
      cases hfound
      rw [hentry]

theorem find_of_readLink {tree : FileTree} {path target : String}
    (h : tree.readLink path = .ok target) :
    ∃ location, tree.find path false = .ok (location, .link target) := by
  rw [readLink] at h
  rcases hfind : tree.find path false with fault | ⟨location, _ | _ | _⟩
  all_goals
    rw [hfind] at h
    cases h
  exact ⟨location, rfl⟩

theorem find_eq_notFound_iff {tree : FileTree} {path : String} {followLast : Bool} :
    tree.find path followLast = .error .notFound ↔
      tree.locate path followLast = .error .notFound ∨
        ∃ location, tree.locate path followLast = .ok location ∧
          tree.entry? location = none := by
  rcases hlocate : tree.locate path followLast with fault | found
  · rw [find, hlocate]
    constructor
    · intro h
      cases h
      exact .inl rfl
    · rintro (h | ⟨location, h, -⟩)
      · cases h
        rfl
      · cases h
  · rw [find_of_locate hlocate]
    constructor
    · intro h
      split at h
      · cases h
      · rename_i heq
        exact .inr ⟨found, rfl, heq⟩
    · rintro (h | ⟨location, h, hnone⟩)
      · cases h
      · cases h
        rw [hnone]

theorem rename_eq {tree : FileTree} {source target : String} {origin place : Location}
    {entry : FileEntry} (hsource : tree.find source false = .ok (origin, entry))
    (htarget : tree.locate target false = .ok place) (hentry : entry ≠ .directory)
    (hplace : tree.entry? place ≠ some .directory) (hne : origin ≠ place)
    (hempty : tree.hasEntries origin = false) (hbelow : isBelow place origin = false) :
    ∃ changed, tree.rename source target = .ok changed ∧
      changed.entry? =
        Function.update (Function.update tree.entry? origin none) place (some entry) := by
  have hstands := (find_eq_ok_iff.mp hsource).2
  have horigin : origin ≠ [] := by
    rintro rfl
    exact hentry (Option.some_inj.mp hstands).symm
  have hplace' := ne_nil_of_entry?_ne hplace
  rw [rename, hsource, htarget]
  simp only [bind, Except.bind]
  rw [if_neg hne, hbelow, if_neg Bool.false_ne_true]
  split
  · contradiction
  · contradiction
  · contradiction
  · refine ⟨_, rfl, ?_⟩
    funext location
    rcases eq_or_ne location [] with rfl | hlocation
    · rw [Function.update_of_ne hplace'.symm, Function.update_of_ne horigin.symm]
      rfl
    · rw [entry?_of_ne_nil _ hlocation]
      have hrest : ∀ rest, rest ≠ [] → tree.entries.lookup (origin ++ rest) = none := by
        intro rest hne
        rw [← entry?_of_ne_nil _ (List.append_ne_nil_of_right_ne_nil origin hne)]
        exact hasEntries_eq_false_iff.mp hempty rest hne
      refine (lookup_move hne hrest location).trans ?_
      rcases eq_or_ne location place with rfl | hne'
      · rw [if_pos rfl, Function.update_self, ← entry?_of_ne_nil _ horigin, hstands]
      · rw [if_neg hne', Function.update_of_ne hne']
        rcases eq_or_ne location origin with rfl | hother
        · rw [if_pos rfl, Function.update_self]
        · rw [if_neg hother, Function.update_of_ne hother, entry?_of_ne_nil _ hlocation]

theorem rename_onto_directory {tree : FileTree} {source target : String} {origin place : Location}
    {entry : FileEntry} (hsource : tree.find source false = .ok (origin, entry))
    (htarget : tree.locate target false = .ok place) (hentry : entry ≠ .directory)
    (hne : origin ≠ place) (hbelow : isBelow place origin = false)
    (hplace : tree.entry? place = some .directory) :
    tree.rename source target = .error .isDirectory := by
  rw [rename, hsource, htarget]
  simp only [bind, Except.bind]
  rw [if_neg hne, hbelow, if_neg Bool.false_ne_true, hplace]
  rcases entry with _ | _ | _
  · exact absurd rfl hentry
  · rfl
  · rfl

theorem rename_eq_error {tree : FileTree} {source target : String} {origin place : Location}
    {entry : FileEntry} {fault : FileFault} (hsource : tree.find source false = .ok (origin, entry))
    (htarget : tree.locate target false = .ok place) (hentry : entry ≠ .directory)
    (hbelow : isBelow place origin = false) (h : tree.rename source target = .error fault) :
    tree.entry? place = some .directory := by
  rw [rename, hsource, htarget] at h
  simp only [bind, Except.bind] at h
  split at h
  · cases h
  rw [hbelow, if_neg Bool.false_ne_true] at h
  split at h
  · exact absurd rfl hentry
  · exact absurd rfl hentry
  · assumption
  · cases h

theorem not_isBelow_beside (location : Location) (name other : String) :
    isBelow (location ++ [other]) (location ++ [name]) = false := by
  rw [Bool.eq_false_iff]
  intro hbelow
  obtain ⟨rest, hrest, heq⟩ := isBelow_iff.mp hbelow
  rw [List.append_assoc, List.append_right_inj] at heq
  exact hrest (List.cons.inj heq).2.symm

/-- What stands at a location and below it. -/
def under (tree : FileTree) (location : Location) : Location → Option FileEntry :=
  fun rest => tree.entry? (location ++ rest)

/-- One tree differs from another below a location alone, where it has given entries. -/
structure Changes (tree : FileTree) (location : Location) (entries : Location → Option FileEntry)
    (changed : FileTree) : Prop where
  inside : changed.under location = entries
  outside : ∀ key, isBelow key location = false → changed.entry? key = tree.entry? key

theorem changes_refl (tree : FileTree) (location : Location) :
    tree.Changes location (tree.under location) tree :=
  ⟨rfl, fun _ _ => rfl⟩

theorem Changes.trans {tree between changed : FileTree} {location : Location}
    {entries entries' : Location → Option FileEntry} (h : tree.Changes location entries between)
    (h' : between.Changes location entries' changed) :
    tree.Changes location entries' changed := by
  refine ⟨h'.inside, ?_⟩
  intro key hkey
  rw [h'.outside key hkey, h.outside key hkey]

theorem ne_append_of_not_isBelow {key location rest : Location}
    (h : isBelow key location = false) (hrest : rest ≠ []) : key ≠ location ++ rest := by
  rintro rfl
  rw [isBelow_iff.mpr ⟨rest, hrest, rfl⟩] at h
  cases h

theorem under_update (entries : Location → Option FileEntry) (location rest : Location)
    (entry : Option FileEntry) :
    Function.update entries (location ++ rest) entry ∘ (location ++ ·) =
      Function.update (entries ∘ (location ++ ·)) rest entry :=
  Function.update_comp_eq_of_injective entries (fun _ _ h => List.append_cancel_left h) rest entry

theorem changes_of_update {tree changed : FileTree} {location rest : Location}
    {entry : Option FileEntry} (hrest : rest ≠ [])
    (h : changed.entry? = Function.update tree.entry? (location ++ rest) entry) :
    tree.Changes location (Function.update (tree.under location) rest entry) changed := by
  constructor
  · change changed.entry? ∘ (location ++ ·) = _
    rw [h, under_update]
    rfl
  · intro key hkey
    rw [h, Function.update_of_ne (ne_append_of_not_isBelow hkey hrest)]

end FileTree

end CertRotation
