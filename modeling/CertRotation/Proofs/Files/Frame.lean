import CertRotation.Proofs.Files.Straight
import CertRotation.Proofs.Files.WriteRead

namespace CertRotation

namespace FileTree

variable {tree after : FileTree} {directory location key : Location} {steps : List String}

/-- Directories lead down to a location, which is one itself. -/
def IsSolid (tree : FileTree) (location : Location) : Prop :=
  ∀ above, above <+: location → tree.entry? above = some .directory

theorem isSolid_nil (tree : FileTree) : tree.IsSolid [] := by
  intro above habove
  rw [List.prefix_nil.mp habove]
  rfl

theorem IsSolid.concat {name : String} (h : tree.IsSolid location)
    (hentry : tree.entry? (location ++ [name]) = some .directory) :
    tree.IsSolid (location ++ [name]) := by
  intro above habove
  rcases List.prefix_concat_iff.mp habove with rfl | habove
  · exact hentry
  · exact h above habove

theorem IsSolid.dropLast (h : tree.IsSolid location) : tree.IsSolid location.dropLast := by
  have hup := List.dropLast_prefix location
  exact fun above habove => h above (habove.trans hup)

/-- Nothing has changed but below a location, and directories that could be reached through others
can be reached still. -/
structure AltersBelow (tree : FileTree) (location : Location) (after : FileTree) : Prop where
  outside : ∀ key, isBelow key location = false → after.entry? key = tree.entry? key
  solid : ∀ key, tree.IsSolid key → after.IsSolid key

theorem altersBelow_refl (tree : FileTree) (location : Location) :
    tree.AltersBelow location tree :=
  ⟨fun _ _ => rfl, fun _ h => h⟩

theorem Leads.of_altersBelow {place : Location} (h : tree.Leads 0 directory steps location)
    (hafter : tree.AltersBelow place after) (hdirectory : tree.IsSolid directory) :
    after.Leads 0 directory steps location := by
  generalize hlinks : 0 = links at h
  induction h with
  | here directory => exact .here directory
  | idle _ ih => exact .idle (ih hdirectory hlinks)
  | up _ ih => exact .up (ih hdirectory.dropLast hlinks)
  | enter hname hentry _ ih =>
      have hsolid := hdirectory.concat hentry
      exact .enter hname (hafter.solid _ hsolid _ List.prefix_rfl) (ih hsolid hlinks)
  | link _ _ _ _ => cases hlinks

theorem altersBelow_of_update {entry : Option FileEntry} (hbelow : isBelow key location = true)
    (hkey : tree.entry? key ≠ some .directory)
    (h : after.entry? = Function.update tree.entry? key entry) :
    tree.AltersBelow location after := by
  constructor
  · intro other hother
    rw [h, Function.update_of_ne]
    rintro rfl
    rw [hbelow] at hother
    cases hother
  · intro other hsolid above habove
    rw [h, Function.update_of_ne, hsolid above habove]
    rintro rfl
    exact hkey (hsolid above habove)

open FileOperation (run)

variable {path : String}

/-- What stands at a location may have changed, unless it is a directory, and nothing else has. -/
def AltersAt (tree : FileTree) (key : Location) (after : FileTree) : Prop :=
  after = tree ∨ tree.entry? key ≠ some .directory ∧
    ∃ entry, after.entry? = Function.update tree.entry? key entry

theorem AltersAt.below (h : AltersAt tree key after) (hbelow : isBelow key location = true) :
    tree.AltersBelow location after := by
  obtain rfl | ⟨hkey, entry, hafter⟩ := h
  · exact altersBelow_refl after location
  · exact altersBelow_of_update hbelow hkey hafter

theorem altersAt_write (h : tree.locate path true = .ok key) (contents : Octets) :
    AltersAt tree key (run (.write path contents) tree).2 := by
  rcases hwrite : tree.write path contents with fault | saved
  · rw [run, hwrite]
    exact .inl rfl
  · obtain ⟨place, isPrivate, hlocate, hwritable, hsaved⟩ := write_eq_ok hwrite
    rw [h] at hlocate
    cases hlocate
    rw [run, hwrite]
    have hne : tree.entry? key ≠ some .directory :=
      hwritable.entry?_ne fun _ _ heq => by cases heq
    exact .inr ⟨hne, _, hsaved⟩

theorem entry?_write_ne_link {target : String} (h : tree.entry? key ≠ some (.link target))
    (path : String) (contents : Octets) :
    entry? (run (.write path contents) tree).2 key ≠ some (.link target) := by
  rcases hwrite : tree.write path contents with fault | saved
  · rw [run, hwrite]
    exact h
  · obtain ⟨place, isPrivate, -, -, hsaved⟩ := write_eq_ok hwrite
    rw [run, hwrite]
    change saved.entry? key ≠ _
    rw [hsaved, Function.update_apply]
    split
    · rintro ⟨⟩
    · exact h

theorem altersAt_makePrivate (h : tree.locate path true = .ok key) :
    AltersAt tree key (run (.makePrivate path) tree).2 := by
  rcases hentry : tree.entry? key with _ | _ | ⟨contents, isPrivate⟩ | target
  · rw [run, makePrivate, find_of_locate h, hentry]
    exact .inl rfl
  · rw [run, makePrivate, find_of_locate h, hentry]
    exact .inl rfl
  · have hne : tree.entry? key ≠ some .directory := by
      rw [hentry]
      rintro ⟨⟩
    rw [run, makePrivate, find_of_locate h, hentry]
    exact .inr ⟨hne, _, entry?_insert tree (ne_nil_of_entry?_ne hne) _⟩
  · rw [run, makePrivate, find_of_locate h, hentry]
    exact .inl rfl

theorem entry?_makePrivate_ne_link {target : String} (h : tree.entry? key ≠ some (.link target))
    (path : String) : entry? (run (.makePrivate path) tree).2 key ≠ some (.link target) := by
  rcases hfind : tree.find path true with fault | ⟨place, _ | ⟨contents, isPrivate⟩ | target'⟩
  · rw [run, makePrivate, hfind]
    exact h
  · rw [run, makePrivate, hfind]
    exact h
  · have hne : place ≠ [] := by
      rintro rfl
      cases (find_eq_ok_iff.mp hfind).2
    rw [run, makePrivate, hfind]
    change entry? (tree.insert place (.file contents true)) key ≠ _
    rw [entry?_insert tree hne, Function.update_apply]
    split
    · rintro ⟨⟩
    · exact h
  · rw [run, makePrivate, hfind]
    exact h

theorem altersAt_removeFile (h : tree.locate path false = .ok key) :
    AltersAt tree key (run (.removeFile path) tree).2 := by
  by_cases hne : tree.entry? key = some .directory
  · rw [run, removeFile, find_of_locate h, hne]
    exact .inl rfl
  · have herase := tree.entry?_erase (ne_nil_of_entry?_ne hne)
    rcases hentry : tree.entry? key with _ | _ | _ | _
    · rw [run, removeFile, find_of_locate h, hentry]
      exact .inl rfl
    · exact absurd hentry hne
    · rw [run, removeFile, find_of_locate h, hentry]
      exact .inr ⟨hne, _, herase⟩
    · rw [run, removeFile, find_of_locate h, hentry]
      exact .inr ⟨hne, _, herase⟩

theorem altersAt_makeLink (h : tree.locate path false = .ok key) (target : String) :
    AltersAt tree key (run (.makeLink target path) tree).2 := by
  rcases hentry : tree.entry? key with _ | entry
  · have hne := ne_directory_of_missing hentry
    rw [run, makeLink, h]
    simp only [bind, Except.bind, hentry]
    exact .inr ⟨hne, _, entry?_insert tree (ne_nil_of_entry?_ne hne) _⟩
  · rw [run, makeLink, h]
    simp only [bind, Except.bind, hentry]
    exact .inl rfl

theorem entry?_of_makeLink (h : tree.locate path false = .ok key) {target : String}
    (hok : (run (.makeLink target path) tree).1 = .ok ()) :
    entry? (run (.makeLink target path) tree).2 key = some (.link target) := by
  rcases hentry : tree.entry? key with _ | entry
  · have hne := ne_nil_of_entry?_ne (ne_directory_of_missing hentry)
    have hlink : tree.makeLink target path = .ok (tree.insert key (.link target)) := by
      rw [makeLink, h]
      simp only [bind, Except.bind, hentry]
      rfl
    rw [run, hlink]
    change entry? (tree.insert key (.link target)) key = _
    rw [entry?_insert tree hne, Function.update_self]
  · have hlink : tree.makeLink target path = .error .exists := by
      rw [makeLink, h]
      simp only [bind, Except.bind, hentry]
      rfl
    rw [run, hlink] at hok
    cases hok

theorem lookup_map_movedTo {entries : List (Location × FileEntry)} {origin place : Location}
    (horigin : ¬origin <+: key) (hplace : ¬place <+: key) :
    ((entries.filter (·.1 != place)).map fun e => (movedTo origin place e.1, e.2)).lookup key =
      entries.lookup key := by
  induction entries with
  | nil => rfl
  | cons entry rest ih =>
      rcases entry with ⟨other, value⟩
      rcases eq_or_ne other place with rfl | hother
      · have hne : key ≠ other := by
          rintro rfl
          exact hplace List.prefix_rfl
        rw [List.filter_cons_of_neg (by simp), ih, List.lookup_cons, beq_false_of_ne hne]
      · rw [List.filter_cons_of_pos (by simpa using hother), List.map_cons, List.lookup_cons,
          List.lookup_cons, ih]
        by_cases hmoves : origin <+: other
        · have hne : key ≠ other := by
            rintro rfl
            exact horigin hmoves
          have hne' : key ≠ movedTo origin place other := by
            intro heq
            apply hplace
            rw [heq, movedTo, if_pos (List.isPrefixOf_iff_prefix.mpr hmoves)]
            exact List.prefix_append _ _
          rw [beq_false_of_ne hne, beq_false_of_ne hne']
        · rw [movedTo_of_not_at_or_below hmoves]

theorem rename_eq_ok {source target : String} {origin place : Location} {entry : FileEntry}
    (hsource : tree.find source false = .ok (origin, entry))
    (htarget : tree.locate target false = .ok place) (hentry : entry ≠ .directory)
    (h : tree.rename source target = .ok after) :
    after = tree ∨ tree.entry? place ≠ some .directory ∧
      ∀ key, ¬origin <+: key → ¬place <+: key → after.entry? key = tree.entry? key := by
  rw [rename, hsource, htarget] at h
  simp only [bind, Except.bind] at h
  split at h
  · cases h
    exact .inl rfl
  split at h
  · cases h
  split at h
  · exact absurd rfl hentry
  · exact absurd rfl hentry
  · cases h
  · rename_i hplace _ _
    cases h
    refine .inr ⟨hplace, ?_⟩
    intro key horigin hbelow
    rcases eq_or_ne key [] with rfl | hkey
    · rfl
    · rw [entry?_of_ne_nil _ hkey, entry?_of_ne_nil _ hkey]
      exact lookup_map_movedTo horigin hbelow

theorem isBelow_of_starts {between : Location} (h : isBelow between location = true)
    (hkey : between <+: key) : isBelow key location = true := by
  obtain ⟨rest, hrest, rfl⟩ := isBelow_iff.mp h
  obtain ⟨more, rfl⟩ := hkey
  rw [List.append_assoc]
  exact isBelow_iff.mpr ⟨_, List.append_ne_nil_of_left_ne_nil hrest more, rfl⟩

theorem altersBelow_rename {source target : String} {origin place : Location}
    (hsource : tree.locate source false = .ok origin)
    (htarget : tree.locate target false = .ok place)
    (horigin : isBelow origin location = true) (hplace : isBelow place location = true)
    (hentry : tree.entry? origin ≠ some .directory) :
    tree.AltersBelow location (run (.rename source target) tree).2 := by
  rcases hrename : tree.rename source target with fault | after
  · rw [run, hrename]
    exact altersBelow_refl tree location
  rw [run, hrename]
  change tree.AltersBelow location after
  rcases hstands : tree.entry? origin with _ | entry
  · have hfind := find_of_locate hsource
    rw [hstands] at hfind
    rw [rename, hfind] at hrename
    cases hrename
  have hfind := find_of_locate hsource
  rw [hstands] at hfind
  have hne : entry ≠ .directory := by
    rintro rfl
    exact hentry hstands
  obtain rfl | ⟨hplaced, hafter⟩ := rename_eq_ok hfind htarget hne hrename
  · exact altersBelow_refl after location
  · constructor
    · intro key hkey
      apply hafter
      · intro hstarts
        rw [isBelow_of_starts horigin hstarts] at hkey
        cases hkey
      · intro hstarts
        rw [isBelow_of_starts hplace hstarts] at hkey
        cases hkey
    · intro key hsolid above habove
      have hsolid' := hsolid above habove
      rw [hafter above, hsolid']
      · intro hstarts
        exact hentry (hsolid origin (hstarts.trans habove))
      · intro hstarts
        exact hplaced (hsolid place (hstarts.trans habove))

theorem entry?_erase_cases (tree : FileTree) (location key : Location) :
    entry? (tree.erase location) key = tree.entry? key ∨
      key = location ∧ entry? (tree.erase location) key = none := by
  rcases eq_or_ne key [] with rfl | hkey
  · exact .inl rfl
  rw [entry?_of_ne_nil _ hkey, entry?_of_ne_nil _ hkey, erase, lookup_filter (· != location)]
  rcases eq_or_ne key location with rfl | hne
  · exact .inr ⟨rfl, if_neg (by simp)⟩
  · exact .inl (if_pos (bne_iff_ne.mpr hne))

theorem entry?_clear_cases (tree : FileTree) (location key : Location) :
    entry? (tree.clear location) key = tree.entry? key ∨
      location <+: key ∧ entry? (tree.clear location) key = none := by
  have hclear := congrFun (tree.entry?_clear location) key
  by_cases hbelow : isBelow key location = true
  · obtain ⟨rest, -, rfl⟩ := isBelow_iff.mp hbelow
    exact .inr ⟨List.prefix_append _ _, hclear.trans (if_pos hbelow)⟩
  · exact .inl (hclear.trans (if_neg hbelow))

theorem entry?_erase_clear_cases (tree : FileTree) (location key : Location) :
    entry? ((tree.clear location).erase location) key = tree.entry? key ∨
      location <+: key ∧ entry? ((tree.clear location).erase location) key = none := by
  rcases entry?_erase_cases (tree.clear location) location key with hsame | ⟨rfl, hnone⟩
  · rw [hsame]
    exact entry?_clear_cases tree location key
  · exact .inr ⟨List.prefix_rfl, hnone⟩

/-- Whether or not a removal comes to its end, it takes nothing but what lies at or below the place
that the path leads to. -/
theorem removeTree_cases (tree : FileTree) (path : String) :
    (tree.removeTree path).2 = tree ∨ ∃ found, tree.locate path false = .ok found ∧
      ∀ key, entry? (tree.removeTree path).2 key = tree.entry? key ∨
        found <+: key ∧ entry? (tree.removeTree path).2 key = none := by
  rcases hfind : tree.find path false with fault | ⟨found, _ | _ | target⟩
  · rw [removeTree, hfind]
    exact .inl rfl
  · refine .inr ⟨found, (find_eq_ok_iff.mp hfind).1, ?_⟩
    intro key
    rw [removeTree, hfind]
    dsimp only
    split
    · exact entry?_clear_cases tree found key
    · split
      · split
        · exact entry?_erase_clear_cases tree found key
        · exact entry?_clear_cases tree found key
      · exact entry?_clear_cases tree found key
  · rw [removeTree, hfind]
    exact .inl rfl
  · refine .inr ⟨found, (find_eq_ok_iff.mp hfind).1, ?_⟩
    intro key
    rw [removeTree, hfind]
    rcases entry?_erase_cases tree found key with hsame | ⟨rfl, hnone⟩
    · exact .inl hsame
    · exact .inr ⟨List.prefix_rfl, hnone⟩

end FileTree

end CertRotation
