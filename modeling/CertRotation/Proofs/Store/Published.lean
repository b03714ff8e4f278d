import CertRotation.Proofs.Store.Layout

namespace CertRotation

namespace DirectoryStore

open Function (update)

/-- What the directory of an identity holds at the names that writers use, however they were
stopped: the link leads to the version that was switched to last, and that version is complete.
Nothing foreign is in a version that was switched to before, and nothing at all has the name of one
that is still to be written. -/
structure Published (entries : Location → Option FileEntry)
    (swapped waiting : List StoredVersion) : Prop where
  link : entries [dataLink] = swapped.head?.map fun version => .link version.name
  draft : entries [dataLinkDraft] ≠ some .directory
  draftEnds : ∀ rest, rest ≠ [] → entries (dataLinkDraft :: rest) = none
  complete : ∀ version ∈ swapped.head?, ∀ rest,
    entries (version.name :: rest) = layout (some version) none (version.name :: rest)
  own : ∀ version ∈ swapped, ∀ rest, entries (version.name :: rest) = none ∨
    entries (version.name :: rest) = layout (some version) none (version.name :: rest)
  unused : ∀ version ∈ waiting, ∀ rest, entries (version.name :: rest) = none
  isVersionName : ∀ version ∈ swapped ++ waiting, IsVersionName version.name
  distinct : ((swapped ++ waiting).map StoredVersion.name).Nodup

theorem IsVersionName.notMem_links {name : String} (h : IsVersionName name) :
    name ∉ [dataLink, dataLinkDraft] := by
  have hsubset : [dataLink, dataLinkDraft] ⊆ fixedNames := by decide
  exact fun hmem => h.notFixed (hsubset hmem)

namespace Published

variable {entries entries' : Location → Option FileEntry} {swapped waiting : List StoredVersion}
  {version : StoredVersion} {name : String}

theorem name_ne (h : Published entries swapped waiting) (hname : name ∈ fixedNames) :
    ∀ version ∈ swapped ++ waiting, version.name ≠ name :=
  fun version hmem => (h.isVersionName version hmem).ne_of_mem hname

/-- A change at one name does no harm if the name is not in use, or if something is lost there that
is not served. -/
theorem of_agree (h : Published entries swapped waiting)
    (hname : name ∉ [dataLink, dataLinkDraft])
    (hhead : ∀ version ∈ swapped.head?, version.name ≠ name)
    (hagree : ∀ first rest, first ≠ name → entries' (first :: rest) = entries (first :: rest))
    (hlost : ∀ version ∈ swapped ++ waiting, version.name = name → ∀ rest,
      entries' (name :: rest) = none ∨ entries' (name :: rest) = entries (name :: rest)) :
    Published entries' swapped waiting := by
  simp only [List.mem_cons, List.not_mem_nil, or_false, not_or] at hname
  have hcases : ∀ version ∈ swapped ++ waiting, ∀ rest,
      entries' (version.name :: rest) = none ∨
        entries' (version.name :: rest) = entries (version.name :: rest) := by
    intro version hmem rest
    rcases eq_or_ne version.name name with rfl | hne
    · exact hlost version hmem rfl rest
    · exact .inr (hagree version.name rest hne)
  constructor
  · rw [hagree dataLink [] (Ne.symm hname.1), h.link]
  · rw [hagree dataLinkDraft [] (Ne.symm hname.2)]
    exact h.draft
  · intro rest hrest
    rw [hagree dataLinkDraft rest (Ne.symm hname.2), h.draftEnds rest hrest]
  · intro version hmem rest
    rw [hagree version.name rest (hhead version hmem), h.complete version hmem]
  · intro version hmem rest
    rcases hcases version (List.mem_append_left _ hmem) rest with hnone | hsame
    · exact .inl hnone
    · rw [hsame]
      exact h.own version hmem rest
  · intro version hmem rest
    rcases hcases version (List.mem_append_right _ hmem) rest with hnone | hsame
    · exact hnone
    · rw [hsame, h.unused version hmem]
  · exact h.isVersionName
  · exact h.distinct

theorem of_fresh (h : Published entries swapped waiting)
    (hname : name ∉ [dataLink, dataLinkDraft])
    (hfresh : ∀ version ∈ swapped ++ waiting, version.name ≠ name)
    (hagree : ∀ first rest, first ≠ name →
      entries' (first :: rest) = entries (first :: rest)) :
    Published entries' swapped waiting := by
  apply h.of_agree hname _ hagree
  · intro version hmem heq
    exact absurd heq (hfresh version hmem)
  · intro version hmem
    exact hfresh version (List.mem_append_left _ (List.mem_of_mem_head? hmem))

theorem update_of_fresh (h : Published entries swapped waiting)
    (hname : name ∉ [dataLink, dataLinkDraft])
    (hfresh : ∀ version ∈ swapped ++ waiting, version.name ≠ name) (rest : List String)
    (entry : Option FileEntry) :
    Published (update entries (name :: rest) entry) swapped waiting :=
  h.of_fresh hname hfresh fun _ _ hne => Function.update_of_ne (by simp [hne]) ..

theorem update_draft (h : Published entries swapped waiting) {entry : Option FileEntry}
    (hentry : entry ≠ some .directory) :
    Published (update entries [dataLinkDraft] entry) swapped waiting := by
  have hagree : ∀ first rest, first ≠ dataLinkDraft ∨ rest ≠ [] →
      update entries [dataLinkDraft] entry (first :: rest) = entries (first :: rest) := by
    intro first rest hne
    apply Function.update_of_ne
    rw [ne_eq, List.cons.injEq, not_and_or]
    exact hne
  have hversion : ∀ version ∈ swapped ++ waiting, ∀ rest,
      update entries [dataLinkDraft] entry (version.name :: rest) =
        entries (version.name :: rest) :=
    fun version hmem rest => hagree _ rest (.inl (h.name_ne (by decide) version hmem))
  constructor
  · rw [hagree dataLink [] (.inl (by decide)), h.link]
  · rw [Function.update_self]
    exact hentry
  · intro rest hrest
    rw [hagree dataLinkDraft rest (.inr hrest), h.draftEnds rest hrest]
  · intro version hmem rest
    rw [hversion version (List.mem_append_left _ (List.mem_of_mem_head? hmem)),
      h.complete version hmem]
  · intro version hmem rest
    rw [hversion version (List.mem_append_left _ hmem)]
    exact h.own version hmem rest
  · intro version hmem rest
    rw [hversion version (List.mem_append_right _ hmem), h.unused version hmem]
  · exact h.isVersionName
  · exact h.distinct

theorem swap (h : Published entries swapped waiting) (hversion : IsVersionName version.name)
    (hfresh : ∀ other ∈ swapped ++ waiting, other.name ≠ version.name)
    (hcomplete : ∀ rest, entries (version.name :: rest) =
      layout (some version) none (version.name :: rest)) :
    Published (update entries [dataLink] (some (.link version.name))) (version :: swapped)
      waiting := by
  have hagree : ∀ name rest, name ≠ dataLink →
      update entries [dataLink] (some (.link version.name)) (name :: rest) =
        entries (name :: rest) :=
    fun name rest hne => Function.update_of_ne (by simp [hne]) ..
  have hname : ∀ other ∈ version :: (swapped ++ waiting), IsVersionName other.name := by
    intro other hmem
    rcases List.mem_cons.mp hmem with rfl | hmem
    · exact hversion
    · exact h.isVersionName other hmem
  have hagree' : ∀ other ∈ version :: (swapped ++ waiting), ∀ rest,
      update entries [dataLink] (some (.link version.name)) (other.name :: rest) =
        entries (other.name :: rest) :=
    fun other hmem rest => hagree _ rest ((hname other hmem).ne_of_mem (by decide))
  constructor
  · rw [Function.update_self]
    rfl
  · rw [hagree dataLinkDraft [] (by decide)]
    exact h.draft
  · intro rest hrest
    rw [hagree dataLinkDraft rest (by decide), h.draftEnds rest hrest]
  · rintro other hmem rest
    cases hmem
    rw [hagree' version List.mem_cons_self, hcomplete]
  · intro other hmem rest
    rcases List.mem_cons.mp hmem with rfl | hmem
    · rw [hagree' other List.mem_cons_self]
      exact .inr (hcomplete rest)
    · rw [hagree' other (List.mem_cons_of_mem _ (List.mem_append_left _ hmem))]
      exact h.own other hmem rest
  · intro other hmem rest
    rw [hagree' other (List.mem_cons_of_mem _ (List.mem_append_right _ hmem)),
      h.unused other hmem]
  · exact hname
  · rw [List.cons_append, List.map_cons, List.nodup_cons]
    refine ⟨?_, h.distinct⟩
    intro hmem
    obtain ⟨other, hmem, heq⟩ := List.mem_map.mp hmem
    exact hfresh other hmem heq

theorem next (h : Published entries swapped (version :: waiting)) :
    Published entries swapped waiting ∧ IsVersionName version.name ∧
      (∀ other ∈ swapped ++ waiting, other.name ≠ version.name) ∧
      ∀ rest, entries (version.name :: rest) = none := by
  have hsubset : ∀ other ∈ swapped ++ waiting, other ∈ swapped ++ version :: waiting := by
    intro other hmem
    rcases List.mem_append.mp hmem with hmem | hmem
    · exact List.mem_append_left _ hmem
    · exact List.mem_append_right _ (List.mem_cons_of_mem _ hmem)
  have hdistinct := h.distinct
  rw [(List.perm_middle.map StoredVersion.name).nodup_iff, List.map_cons,
    List.nodup_cons] at hdistinct
  refine ⟨⟨h.link, h.draft, h.draftEnds, h.complete, h.own, ?_, ?_, hdistinct.2⟩, ?_, ?_, ?_⟩
  · exact fun other hmem => h.unused other (List.mem_cons_of_mem _ hmem)
  · exact fun other hmem => h.isVersionName other (hsubset other hmem)
  · exact h.isVersionName version (List.mem_append_right _ List.mem_cons_self)
  · intro other hmem heq
    exact hdistinct.1 (heq ▸ List.mem_map_of_mem hmem)
  · exact h.unused version List.mem_cons_self

theorem name_ne_served {served : StoredVersion}
    (h : Published entries (served :: swapped) waiting) :
    ∀ version ∈ swapped ++ waiting, version.name ≠ served.name := by
  have hdistinct := h.distinct
  rw [List.cons_append, List.map_cons, List.nodup_cons] at hdistinct
  intro version hmem heq
  exact hdistinct.1 (heq ▸ List.mem_map_of_mem hmem)

theorem lose_version {served : StoredVersion}
    (h : Published entries (served :: swapped) waiting) (hmem : version ∈ swapped)
    (hagree : ∀ first rest, first ≠ version.name →
      entries' (first :: rest) = entries (first :: rest))
    (hlost : ∀ rest, entries' (version.name :: rest) = none ∨
      entries' (version.name :: rest) = entries (version.name :: rest)) :
    Published entries' (served :: swapped) waiting := by
  have hname := h.isVersionName version (List.mem_append_left _ (List.mem_cons_of_mem _ hmem))
  apply h.of_agree hname.notMem_links _ hagree fun _ _ _ => hlost
  rintro _ ⟨⟩
  exact (h.name_ne_served version (List.mem_append_left _ hmem)).symm

end Published

end DirectoryStore

end CertRotation
