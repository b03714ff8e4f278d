import CertRotation.Files.Tree

namespace CertRotation

namespace FilePath

theorem pieces_eq_splitOn (chars : List Char) : pieces chars = chars.splitOn '/' := by
  induction chars with
  | nil => rfl
  | cons c rest ih =>
      rw [pieces, ih, List.splitOn_cons_eq_if_modifyHead]
      obtain ⟨piece, more, hsplit⟩ :=
        List.exists_cons_of_ne_nil (List.splitOn_ne_nil '/' rest)
      simp [hsplit]

theorem pieces_ne_nil (chars : List Char) : pieces chars ≠ [] := by
  rw [pieces_eq_splitOn]
  exact List.splitOn_ne_nil '/' chars

theorem pieces_append_slash (before rest : List Char) :
    pieces (before ++ '/' :: rest) = pieces before ++ pieces rest := by
  simp only [pieces_eq_splitOn, List.splitOn_append_cons_self]

theorem pieces_of_notMem {part : List Char} (h : '/' ∉ part) : pieces part = [part] := by
  rw [pieces_eq_splitOn, List.splitOn_eq_singleton h]

theorem intercalate_pieces (chars : List Char) : ['/'].intercalate (pieces chars) = chars := by
  rw [pieces_eq_splitOn, List.intercalate_splitOn]

theorem intercalate_concat_nil {before : List (List Char)} (h : before ≠ []) :
    ['/'].intercalate (before ++ [[]]) = ['/'].intercalate before ++ ['/'] := by
  induction before with
  | nil => exact absurd rfl h
  | cons part before ih =>
      rcases before with _ | ⟨next, before⟩
      · simp
      · rw [List.cons_append, List.cons_append, List.intercalate_cons_cons,
          List.intercalate_cons_cons, ← List.cons_append, ih (List.cons_ne_nil _ _)]
        simp only [List.append_assoc]

/-- A text that can name an entry of a directory. -/
structure IsName (part : String) : Prop where
  ne_empty : part ≠ ""
  noSlash : '/' ∉ part.toList
  ne_dot : part ≠ "."
  ne_dots : part ≠ ".."
  isShort : part.utf8ByteSize ≤ FileTree.maxNameOctets

/-- A text that reads as one step of a path, and not as a step up. It may be too long for a name. -/
structure IsPart (part : String) : Prop where
  ne_empty : part ≠ ""
  noSlash : '/' ∉ part.toList
  ne_dot : part ≠ "."
  ne_dots : part ≠ ".."

theorem IsName.isPart {part : String} (h : IsName part) : IsPart part :=
  ⟨h.ne_empty, h.noSlash, h.ne_dot, h.ne_dots⟩

theorem IsPart.toList_ne_nil {part : String} (h : IsPart part) : part.toList ≠ [] := by
  intro hnil
  exact h.ne_empty (String.toList_eq_nil_iff.mp hnil)

theorem IsPart.toList_ne_dot {part : String} (h : IsPart part) : part.toList ≠ ['.'] := by
  intro heq
  apply h.ne_dot
  rw [← String.toList_inj, heq]
  rfl

theorem IsPart.not_isIdle {part : String} (h : IsPart part) : isIdle part.toList = false := by
  simp [isIdle, h.toList_ne_nil, h.toList_ne_dot]

theorem IsPart.startsWith_slash {part : String} (h : IsPart part) :
    part.startsWith "/" = false := by
  rw [String.startsWith_string_eq_false_iff]
  intro hstarts
  exact h.noSlash (hstarts.subset (by decide))

/-- What stands between a directory and the part of a path after it. -/
def separator (chars : List Char) : List Char :=
  if chars = [] ∨ chars.getLast? = some '/' then [] else ['/']

theorem toList_join (directory : String) {part : String} (h : part.startsWith "/" = false) :
    (join directory part).toList =
      directory.toList ++ (separator directory.toList ++ part.toList) := by
  have hend : directory.endsWith "/" = true ↔ directory.toList.getLast? = some '/' := by
    rw [← String.endsWith_toSlice, String.Slice.endsWith_string_iff, String.copy_toSlice,
      List.getLast?_eq_some_iff]
    constructor
    · rintro ⟨before, heq⟩
      exact ⟨before, heq.symm⟩
    · rintro ⟨before, heq⟩
      exact ⟨before, heq.symm⟩
  rw [join, h, if_neg Bool.false_ne_true, separator]
  by_cases hnone : directory = "" ∨ directory.endsWith "/" = true
  · have hnone' : directory.toList = [] ∨ directory.toList.getLast? = some '/' := by
      rw [← hend, String.toList_eq_nil_iff]
      exact hnone
    rw [if_pos hnone, if_pos hnone', String.toList_append, List.nil_append]
  · have hnone' : ¬(directory.toList = [] ∨ directory.toList.getLast? = some '/') := by
      rw [← hend, String.toList_eq_nil_iff]
      exact hnone
    rw [if_neg hnone, if_neg hnone', String.toList_append, String.toList_append]
    simp

theorem join_ne_empty (directory : String) {part : String} (h : IsPart part) :
    join directory part ≠ "" := by
  rw [ne_eq, ← String.toList_eq_nil_iff, toList_join directory h.startsWith_slash]
  simp [h.toList_ne_nil]

theorem pieces_separator_append (chars part : List Char) :
    ∃ before, pieces (chars ++ (separator chars ++ part)) = before ++ pieces part ∧
      (pieces chars = before ∨ pieces chars = before ++ [[]]) := by
  by_cases hnil : chars = []
  · subst chars
    exact ⟨[], rfl, .inr rfl⟩
  by_cases hlast : chars.getLast? = some '/'
  · obtain ⟨start, rfl⟩ := List.getLast?_eq_some_iff.mp hlast
    refine ⟨pieces start, ?_, .inr ?_⟩
    · rw [separator, if_pos (.inr hlast), List.nil_append, List.append_assoc,
        List.singleton_append, pieces_append_slash]
    · rw [pieces_append_slash]
      rfl
  · refine ⟨pieces chars, ?_, .inl rfl⟩
    rw [separator, if_neg (not_or.mpr ⟨hnil, hlast⟩), List.singleton_append, pieces_append_slash]

/-- The texts of the pieces that are not empty. -/
def namesOf (parts : List (List Char)) : List String :=
  (parts.map String.ofList).filter (· ≠ "")

@[simp] theorem namesOf_nil : namesOf [] = [] := rfl

@[simp] theorem namesOf_nil_cons (parts : List (List Char)) :
    namesOf ([] :: parts) = namesOf parts := rfl

theorem namesOf_append (before rest : List (List Char)) :
    namesOf (before ++ rest) = namesOf before ++ namesOf rest := by
  rw [namesOf, List.map_append, List.filter_append, ← namesOf, ← namesOf]

theorem ofList_ne_empty {chars : List Char} (h : chars ≠ []) : String.ofList chars ≠ "" := by
  rw [ne_eq, ← String.toList_eq_nil_iff, String.toList_ofList]
  exact h

theorem namesOf_singleton {part : List Char} (h : part ≠ []) :
    namesOf [part] = [String.ofList part] := by
  simp [namesOf, ofList_ne_empty h]

/-- The pieces of a path that are not empty. -/
def names (path : String) : List String := namesOf (pieces path.toList)

theorem exists_pieces_join (directory : String) {part : String}
    (h : part.startsWith "/" = false) :
    ∃ before, pieces (join directory part).toList = before ++ pieces part.toList ∧
      namesOf before = names directory := by
  obtain ⟨before, hpieces, hbefore⟩ := pieces_separator_append directory.toList part.toList
  refine ⟨before, ?_, ?_⟩
  · rw [toList_join directory h, hpieces]
  · rcases hbefore with hbefore | hbefore
    · rw [names, hbefore]
    · rw [names, hbefore, namesOf_append]
      exact (List.append_nil _).symm

theorem names_join_of_relative (directory : String) {part : String}
    (h : part.startsWith "/" = false) :
    names (join directory part) = names directory ++ names part := by
  obtain ⟨before, hpieces, hbefore⟩ := exists_pieces_join directory h
  rw [names, hpieces, namesOf_append, hbefore, ← names]

theorem mem_names_join {directory part name : String} (h : name ∈ names (join directory part)) :
    name ∈ names directory ∨ name ∈ names part := by
  rcases hstarts : part.startsWith "/" with _ | _
  · rw [names_join_of_relative directory hstarts] at h
    exact List.mem_append.mp h
  · rw [join, if_pos hstarts] at h
    exact .inr h

theorem steps_of_pieces {path : String} {before : List (List Char)} {last : List Char}
    (h : pieces path.toList = before ++ [last]) (hlast : last ≠ []) :
    steps path = namesOf before ++ [String.ofList last] := by
  simp only [steps, h, List.map_append, List.map_cons, List.map_nil, List.dropLast_concat,
    List.getLast?_concat]
  congr 1
  split
  · rename_i heq
    exact absurd (Option.some_inj.mp heq) (ofList_ne_empty hlast)
  · rename_i heq
    rw [Option.some_inj.mp heq]
  · trivial

theorem steps_of_pieces_nil {path : String} {before : List (List Char)}
    (h : pieces path.toList = before ++ [[]]) :
    steps path = namesOf before ++ if path = "" then [] else ["."] := by
  simp only [steps, h, List.map_append, List.map_cons, List.map_nil, List.dropLast_concat,
    List.getLast?_concat]
  rfl

theorem steps_join (directory : String) {part : String} (h : IsPart part) :
    steps (join directory part) = names directory ++ [part] := by
  obtain ⟨before, hpieces, hbefore⟩ := exists_pieces_join directory h.startsWith_slash
  rw [pieces_of_notMem h.noSlash] at hpieces
  rw [steps_of_pieces hpieces h.toList_ne_nil, hbefore, String.ofList_toList]

theorem steps_of_isPart {part : String} (h : IsPart part) : steps part = [part] := by
  have hpieces : pieces part.toList = [] ++ [part.toList] := pieces_of_notMem h.noSlash
  rw [steps_of_pieces hpieces h.toList_ne_nil, String.ofList_toList]
  rfl

theorem names_of_isPart {part : String} (h : IsPart part) : names part = [part] := by
  rw [names, pieces_of_notMem h.noSlash, namesOf_singleton h.toList_ne_nil, String.ofList_toList]

theorem names_join (directory : String) {part : String} (h : IsPart part) :
    names (join directory part) = names directory ++ [part] := by
  rw [names_join_of_relative directory h.startsWith_slash, names_of_isPart h]

theorem withoutSlashesAtEnd_join (directory : String) {part : String} (h : IsPart part) :
    withoutSlashesAtEnd (join directory part) = join directory part := by
  obtain ⟨start, last, hpart⟩ : ∃ start last, part.toList = start ++ [last] :=
    ⟨_, _, (List.dropLast_concat_getLast h.toList_ne_nil).symm⟩
  have hlast : last ≠ '/' := by
    rintro rfl
    apply h.noSlash
    rw [hpart]
    simp
  have hjoin := toList_join directory h.startsWith_slash
  rw [withoutSlashesAtEnd, hjoin, hpart, ← String.toList_inj, String.toList_ofList, hjoin, hpart]
  simp [hlast]

theorem steps_eq_or (path : String) :
    steps path = names path ∨ steps path = names path ++ ["."] := by
  obtain ⟨before, last, hpieces⟩ : ∃ before last, pieces path.toList = before ++ [last] :=
    ⟨_, _, (List.dropLast_concat_getLast (pieces_ne_nil _)).symm⟩
  have hnames : names path = namesOf before ++ namesOf [last] := by
    rw [names, hpieces, namesOf_append]
  by_cases hlast : last = []
  · subst last
    rw [steps_of_pieces_nil hpieces, hnames]
    split
    · exact .inl rfl
    · exact .inr (by simp)
  · refine .inl ?_
    rw [steps_of_pieces hpieces hlast, hnames, namesOf_singleton hlast]

theorem namesOf_pieces_slashes {slashes : List Char} (h : ∀ c ∈ slashes, c = '/') :
    namesOf (pieces slashes) = [] := by
  induction slashes with
  | nil => rfl
  | cons c rest ih =>
      rw [h c List.mem_cons_self, ← List.nil_append ('/' :: rest), pieces_append_slash,
        namesOf_append, ih fun d hd => h d (List.mem_cons_of_mem c hd)]
      rfl

theorem steps_withoutSlashesAtEnd (path : String) :
    steps (withoutSlashesAtEnd path) = names path := by
  obtain ⟨chars, hchars⟩ : ∃ chars, (withoutSlashesAtEnd path).toList = chars := ⟨_, rfl⟩
  have hdrop : chars = (path.toList.reverse.dropWhile (· == '/')).reverse := by
    rw [← hchars, withoutSlashesAtEnd, String.toList_ofList]
  have hpath : path.toList = chars ++ (path.toList.reverse.takeWhile (· == '/')).reverse := by
    rw [hdrop, ← List.reverse_append, List.takeWhile_append_dropWhile, List.reverse_reverse]
  have hslashes : ∀ c ∈ (path.toList.reverse.takeWhile (· == '/')).reverse, c = '/' := by
    intro c hc
    exact beq_iff_eq.mp (List.all_eq_true.mp List.all_takeWhile c (List.mem_reverse.mp hc))
  have hnames : names path = namesOf (pieces chars) := by
    rw [names, hpath]
    generalize (path.toList.reverse.takeWhile (· == '/')).reverse = slashes at hslashes ⊢
    rcases slashes with _ | ⟨c, rest⟩
    · rw [List.append_nil]
    · rw [hslashes c List.mem_cons_self, pieces_append_slash, namesOf_append,
        namesOf_pieces_slashes fun d hd => hslashes d (List.mem_cons_of_mem c hd),
        List.append_nil]
  obtain ⟨before, last, hpieces⟩ : ∃ before last, pieces chars = before ++ [last] :=
    ⟨_, _, (List.dropLast_concat_getLast (pieces_ne_nil _)).symm⟩
  rw [hnames, hpieces]
  rw [← hchars] at hpieces
  by_cases hlast : last = []
  · subst last
    have hchars' : chars = ['/'].intercalate (before ++ [[]]) := by
      rw [← hpieces, intercalate_pieces, hchars]
    by_cases hbefore : before = []
    · subst before
      have hempty : withoutSlashesAtEnd path = "" := by
        rw [← String.toList_eq_nil_iff, hchars, hchars']
        rfl
      rw [steps_of_pieces_nil hpieces, if_pos hempty]
      rfl
    · have hend := List.head?_dropWhile_not (· == '/') path.toList.reverse
      rw [← List.getLast?_reverse, ← hdrop, hchars', intercalate_concat_nil hbefore,
        List.getLast?_concat] at hend
      cases hend
  · rw [steps_of_pieces hpieces hlast, namesOf_append, namesOf_singleton hlast]

end FilePath

end CertRotation
