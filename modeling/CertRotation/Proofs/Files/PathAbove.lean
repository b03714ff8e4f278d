import CertRotation.Proofs.Files.Path

namespace CertRotation

namespace FilePath

/-- What a path says after what it begins with. -/
def body (path : String) : List Char := path.toList.drop (lead path.toList).length

theorem lead_append_body (path : String) : lead path.toList ++ body path = path.toList := by
  have hstarts : ∀ chars : List Char, lead chars <+: chars := by
    intro chars
    unfold lead
    split <;> simp
  exact List.prefix_iff_eq_append.mp (hstarts path.toList)

theorem lead_body_cases (path : String) :
    lead path.toList = ['/'] ∨ lead path.toList = [] ∨
      lead path.toList = ['.'] ∧ (body path = [] ∨ (body path).head? = some '/') := by
  rw [body]
  generalize path.toList = chars
  unfold lead
  split
  · exact .inl rfl
  · exact .inr (.inr ⟨rfl, .inl rfl⟩)
  · exact .inr (.inr ⟨rfl, .inr rfl⟩)
  · exact .inr (.inl rfl)

theorem separator_append {before chars : List Char} (h : chars ≠ []) :
    separator (before ++ chars) = separator chars := by
  obtain ⟨start, last, rfl⟩ : ∃ start last, chars = start ++ [last] :=
    ⟨_, _, (List.dropLast_concat_getLast h).symm⟩
  simp [separator]

theorem separator_eq_separator_body {path : String} (h : path.toList ≠ ['.']) :
    separator path.toList = separator (body path) := by
  by_cases hnil : body path = []
  · have heq := lead_append_body path
    rw [hnil, List.append_nil] at heq
    rw [hnil]
    rcases lead_body_cases path with hlead | hlead | ⟨hlead, -⟩
    · rw [← heq, hlead]
      rfl
    · rw [← heq, hlead]
    · rw [hlead] at heq
      exact absurd heq.symm h
  · rw [← lead_append_body path]
    exact separator_append hnil

/-- A path without the idle pieces at its end. -/
def withoutIdleAtEnd (path : String) : String :=
  String.ofList (lead path.toList ++ ['/'].intercalate (dropIdleAtEnd (pieces (body path))))

theorem lead_of_isPart {part : String} (h : IsPart part) : lead part.toList = [] := by
  have hslash := h.noSlash
  unfold lead
  split
  · rename_i heq
    simp [heq] at hslash
  · rename_i heq
    exact absurd heq h.toList_ne_dot
  · rename_i heq
    simp [heq] at hslash
  · rfl

theorem lead_cons_cons (c d : Char) (rest : List Char) :
    lead (c :: d :: rest) =
      if c = '/' then ['/'] else if c = '.' ∧ d = '/' then ['.'] else [] := by
  unfold lead
  split
  · simp_all
  · simp_all
  · simp_all
  · simp_all

theorem lead_join (directory : String) {part : String} (h : IsPart part) :
    lead (join directory part).toList = lead directory.toList := by
  rw [toList_join directory h.startsWith_slash]
  rcases directory.toList with _ | ⟨c, _ | ⟨d, rest⟩⟩
  · exact lead_of_isPart h
  · by_cases hslash : c = '/'
    · subst c
      rfl
    by_cases hdot : c = '.'
    · subst c
      rfl
    · have hseparator : separator [c] = ['/'] := by
        simp [separator, hslash]
      rw [hseparator]
      simp [lead, hslash, hdot]
  · simp only [List.cons_append, lead_cons_cons]

theorem exists_pieces_body_join (directory : String) {part : String} (h : IsPart part) :
    ∃ before, pieces (body (join directory part)) = before ++ [part.toList] ∧
      (pieces (body directory) = before ∨ pieces (body directory) = before ++ [[]]) := by
  have hbody : body (join directory part) =
      body directory ++ (separator directory.toList ++ part.toList) := by
    apply (List.append_right_inj (lead directory.toList)).mp
    rw [← List.append_assoc, lead_append_body, ← toList_join directory h.startsWith_slash,
      ← lead_join directory h, lead_append_body]
  by_cases hdot : directory.toList = ['.']
  · have hnil : body directory = [] := by
      rw [body, hdot]
      rfl
    refine ⟨[[]], ?_, .inl ?_⟩
    · rw [hbody, hnil, hdot]
      change pieces ([] ++ '/' :: part.toList) = _
      rw [pieces_append_slash, pieces_of_notMem h.noSlash]
      rfl
    · rw [hnil]
      rfl
  · rw [hbody, separator_eq_separator_body hdot, ← pieces_of_notMem h.noSlash]
    exact pieces_separator_append (body directory) part.toList

theorem dropIdleAtEnd_concat {parts : List (List Char)} {part : List Char}
    (h : isIdle part = false) : dropIdleAtEnd (parts ++ [part]) = parts ++ [part] := by
  simp [dropIdleAtEnd, h]

theorem dropIdleAtEnd_concat_nil (parts : List (List Char)) :
    dropIdleAtEnd (parts ++ [[]]) = dropIdleAtEnd parts := by
  simp [dropIdleAtEnd, isIdle]

theorem parent?_of_kept {path : String} {before : List (List Char)} {part : List Char}
    (h : dropIdleAtEnd (pieces (body path)) = before ++ [part]) :
    parent? path = some (String.ofList
      (lead path.toList ++ ['/'].intercalate (dropIdleAtEnd before))) := by
  rw [body] at h
  simp only [parent?, h]
  split
  · rename_i heq
    simp at heq
  · rename_i heq
    rw [← heq, List.dropLast_concat]

theorem parent?_join (directory : String) {part : String} (h : IsPart part) :
    parent? (join directory part) = some (withoutIdleAtEnd directory) := by
  obtain ⟨before, hpieces, hbefore⟩ := exists_pieces_body_join directory h
  have hidle : dropIdleAtEnd (pieces (body directory)) = dropIdleAtEnd before := by
    rcases hbefore with hbefore | hbefore
    · rw [hbefore]
    · rw [hbefore, dropIdleAtEnd_concat_nil]
  rw [withoutIdleAtEnd, hidle, ← lead_join directory h]
  apply parent?_of_kept
  rw [hpieces, dropIdleAtEnd_concat h.not_isIdle]

theorem withoutIdleAtEnd_join (directory : String) {part : String} (h : IsPart part) :
    withoutIdleAtEnd (join directory part) = join directory part := by
  obtain ⟨before, hpieces, -⟩ := exists_pieces_body_join directory h
  rw [withoutIdleAtEnd, hpieces, dropIdleAtEnd_concat h.not_isIdle, ← hpieces,
    intercalate_pieces, lead_append_body, String.ofList_toList]

theorem intercalate_append_starts (before rest : List (List Char)) :
    ['/'].intercalate before <+: ['/'].intercalate (before ++ rest) := by
  induction before with
  | nil => exact List.nil_prefix
  | cons part before ih =>
      rcases before with _ | ⟨next, before⟩
      · rcases rest with _ | ⟨next, rest⟩
        · exact List.prefix_rfl
        · rw [List.intercalate_singleton, List.singleton_append, List.intercalate_cons_cons,
            List.append_assoc]
          exact List.prefix_append _ _
      · rw [List.cons_append, List.cons_append, List.intercalate_cons_cons,
          List.intercalate_cons_cons]
        exact List.prefix_append_right_inj _ |>.mpr ih

theorem length_intercalate_concat_lt (before : List (List Char)) {part : List Char}
    (h : part ≠ []) :
    (['/'].intercalate before).length < (['/'].intercalate (before ++ [part])).length := by
  induction before with
  | nil => simpa using List.length_pos_iff.mpr h
  | cons first before ih =>
      rcases before with _ | ⟨next, before⟩
      · simp
      · simp only [List.cons_append, List.intercalate_cons_cons, List.length_append] at ih ⊢
        omega

theorem exists_dropIdleAtEnd_append (parts : List (List Char)) :
    ∃ idle, dropIdleAtEnd parts ++ idle = parts ∧ ∀ part ∈ idle, isIdle part = true := by
  refine ⟨(parts.reverse.takeWhile isIdle).reverse, ?_, ?_⟩
  · rw [dropIdleAtEnd, ← List.reverse_append, List.takeWhile_append_dropWhile,
      List.reverse_reverse]
  · intro part hmem
    exact List.all_eq_true.mp List.all_takeWhile part (List.mem_reverse.mp hmem)

theorem not_isIdle_of_dropIdleAtEnd {parts before : List (List Char)} {last : List Char}
    (h : dropIdleAtEnd parts = before ++ [last]) : isIdle last = false := by
  have hhead : (parts.reverse.dropWhile isIdle).head? = some last := by
    rw [← List.getLast?_reverse, ← dropIdleAtEnd, h, List.getLast?_concat]
  have hnot := List.head?_dropWhile_not isIdle parts.reverse
  rw [hhead] at hnot
  exact hnot

theorem length_parent?_lt {path parent : String} (h : parent? path = some parent) :
    parent.length < path.length := by
  have hpath : path.length =
      (lead path.toList).length + (['/'].intercalate (pieces (body path))).length := by
    rw [intercalate_pieces, ← List.length_append, lead_append_body, String.length_toList]
  simp only [parent?] at h
  rw [← body] at h
  split at h
  · split at h
    · rename_i hlead
      cases h
      rw [hpath, hlead]
      change 0 < 1 + _
      omega
    · cases h
  · rename_i first more hkept
    obtain ⟨before, last, hlast⟩ : ∃ before last, first :: more = before ++ [last] :=
      ⟨_, _, (List.dropLast_concat_getLast (List.cons_ne_nil first more)).symm⟩
    rw [hlast] at h hkept
    have hnotIdle := not_isIdle_of_dropIdleAtEnd hkept
    have hne : last ≠ [] := by
      rintro rfl
      cases hnotIdle
    obtain ⟨idle, hidle, -⟩ := exists_dropIdleAtEnd_append (pieces (body path))
    obtain ⟨idle', hidle', -⟩ := exists_dropIdleAtEnd_append before
    have hle : (['/'].intercalate (before ++ [last])).length ≤
        (['/'].intercalate (pieces (body path))).length := by
      rw [← hidle, hkept]
      exact (intercalate_append_starts _ _).length_le
    have hlt := length_intercalate_concat_lt before hne
    have hle' := (intercalate_append_starts (dropIdleAtEnd before) idle').length_le
    rw [hidle'] at hle'
    cases h
    rw [String.length_ofList, List.length_append, List.dropLast_concat]
    omega

theorem ancestorsWithin_succ (budget : Nat) (path : String) :
    ancestorsWithin (budget + 1) path =
      path :: match parent? path with
        | some parent => ancestorsWithin budget parent
        | none => [] := rfl

/-- The budget is for the checker of termination: a path has fewer ancestors than characters. -/
theorem ancestorsWithin_eq {budget budget' : Nat} {path : String} (h : path.length < budget)
    (h' : path.length < budget') : ancestorsWithin budget path = ancestorsWithin budget' path := by
  induction budget generalizing budget' path with
  | zero => omega
  | succ budget ih =>
      obtain ⟨budget', rfl⟩ : ∃ smaller, budget' = smaller + 1 := ⟨budget' - 1, by omega⟩
      rw [ancestorsWithin_succ, ancestorsWithin_succ]
      rcases hparent : parent? path with _ | parent
      · rfl
      · have hlt := length_parent?_lt hparent
        have heq : ancestorsWithin budget parent = ancestorsWithin budget' parent :=
          ih (by omega) (by omega)
        exact congrArg (path :: ·) heq

theorem ancestors_join (directory : String) {part : String} (h : IsPart part) :
    ancestors (join directory part) =
      join directory part :: ancestors (withoutIdleAtEnd directory) := by
  have hlt := length_parent?_lt (parent?_join directory h)
  rw [ancestors, ancestorsWithin_succ, parent?_join directory h, ancestors]
  congr 1
  exact ancestorsWithin_eq hlt (Nat.lt_succ_self _)

theorem notMem_of_mem_pieces {chars piece : List Char} (h : piece ∈ pieces chars) :
    '/' ∉ piece := by
  induction chars generalizing piece with
  | nil =>
      rw [pieces, List.mem_singleton] at h
      rw [h]
      exact List.not_mem_nil
  | cons c rest ih =>
      obtain ⟨first, more, hpieces⟩ := List.exists_cons_of_ne_nil (pieces_ne_nil rest)
      rw [hpieces] at ih
      simp only [pieces, hpieces] at h
      by_cases hc : c = '/'
      · rw [if_pos hc] at h
        rcases List.mem_cons.mp h with rfl | h
        · exact List.not_mem_nil
        · exact ih h
      · rw [if_neg hc] at h
        rcases List.mem_cons.mp h with rfl | h
        · intro hmem
          rcases List.mem_cons.mp hmem with heq | hmem
          · exact hc heq.symm
          · exact ih List.mem_cons_self hmem
        · exact ih (List.mem_cons_of_mem first h)

theorem namesOf_pieces_append {lead chars : List Char}
    (h : lead = ['/'] ∨ lead = [] ∨ lead = ['.'] ∧ (chars = [] ∨ chars.head? = some '/')) :
    namesOf (pieces (lead ++ chars)) =
      (if lead = ['.'] then ["."] else []) ++ namesOf (pieces chars) := by
  rcases h with rfl | rfl | ⟨rfl, rfl | hhead⟩
  · change namesOf (pieces ([] ++ '/' :: chars)) = _
    rw [pieces_append_slash, namesOf_append]
    rfl
  · rfl
  · rfl
  · obtain ⟨rest, rfl⟩ := List.head?_eq_some_iff.mp hhead
    rw [if_pos rfl, pieces_append_slash, namesOf_append]
    change _ = ["."] ++ namesOf (pieces ([] ++ '/' :: rest))
    rw [pieces_append_slash, namesOf_append]
    rfl

theorem names_eq (path : String) :
    names path =
      (if lead path.toList = ['.'] then ["."] else []) ++ namesOf (pieces (body path)) := by
  rw [names, ← lead_append_body, namesOf_pieces_append (lead_body_cases path), lead_append_body]

theorem names_of_kept {path : String} {kept : List (List Char)}
    (h : kept <+: pieces (body path)) :
    names (String.ofList (lead path.toList ++ ['/'].intercalate kept)) =
      (if lead path.toList = ['.'] then ["."] else []) ++ namesOf kept := by
  obtain ⟨left, hleft⟩ := h
  have hstarts : ['/'].intercalate kept <+: body path := by
    have h := intercalate_append_starts kept left
    rw [hleft, intercalate_pieces] at h
    exact h
  have hcases : lead path.toList = ['/'] ∨ lead path.toList = [] ∨
      lead path.toList = ['.'] ∧
        (['/'].intercalate kept = [] ∨ (['/'].intercalate kept).head? = some '/') := by
    rcases lead_body_cases path with hlead | hlead | ⟨hlead, hbody⟩
    · exact .inl hlead
    · exact .inr (.inl hlead)
    · refine .inr (.inr ⟨hlead, ?_⟩)
      rcases hstart : ['/'].intercalate kept with _ | ⟨c, rest⟩
      · exact .inl rfl
      · rw [hstart] at hstarts
        obtain ⟨more, hmore⟩ := hstarts
        rw [← hmore] at hbody
        exact .inr (hbody.resolve_left (List.cons_ne_nil _ _))
  have hpieces : namesOf (pieces (['/'].intercalate kept)) = namesOf kept := by
    by_cases hnil : kept = []
    · rw [hnil]
      rfl
    · rw [pieces_eq_splitOn, List.splitOn_intercalate '/' _ hnil]
      intro part hmem
      refine notMem_of_mem_pieces (?_ : part ∈ pieces (body path))
      rw [← hleft]
      exact List.mem_append_left left hmem
  rw [names, String.toList_ofList, namesOf_pieces_append hcases, hpieces]

theorem eq_dot_of_mem_namesOf {idle : List (List Char)} (h : ∀ part ∈ idle, isIdle part = true) :
    ∀ step ∈ namesOf idle, step = "." := by
  intro step hmem
  obtain ⟨hmem, hne⟩ := List.mem_filter.mp hmem
  obtain ⟨part, hpart, rfl⟩ := List.mem_map.mp hmem
  have hidle := h part hpart
  simp only [isIdle, Bool.or_eq_true, decide_eq_true_eq] at hidle
  rcases hidle with rfl | rfl
  · simp at hne
  · rfl

theorem exists_names_withoutIdleAtEnd_append (path : String) :
    ∃ dots, names path = names (withoutIdleAtEnd path) ++ dots ∧ ∀ step ∈ dots, step = "." := by
  obtain ⟨idle, hidle, hall⟩ := exists_dropIdleAtEnd_append (pieces (body path))
  refine ⟨namesOf idle, ?_, eq_dot_of_mem_namesOf hall⟩
  rw [withoutIdleAtEnd, names_of_kept ⟨idle, hidle⟩, names_eq, ← hidle, namesOf_append, hidle,
    List.append_assoc]

theorem names_parent?_starts {path parent : String} (h : parent? path = some parent) :
    names parent <+: names path := by
  simp only [parent?] at h
  rw [← body] at h
  split at h
  · split at h
    · cases h
      exact List.nil_prefix
    · cases h
  · rename_i first more hkept
    have hstarts : ∀ parts, dropIdleAtEnd parts <+: parts := by
      intro parts
      obtain ⟨idle, hidle, -⟩ := exists_dropIdleAtEnd_append parts
      exact ⟨idle, hidle⟩
    have hpieces : dropIdleAtEnd (first :: more).dropLast <+: pieces (body path) := by
      have hup := List.dropLast_prefix (first :: more)
      apply (hstarts _).trans (hup.trans _)
      rw [← hkept]
      exact hstarts _
    cases h
    obtain ⟨left, hleft⟩ := hpieces
    rw [names_of_kept ⟨left, hleft⟩, names_eq, List.prefix_append_right_inj, ← hleft,
      namesOf_append]
    exact List.prefix_append _ _

/-- The last step of a path leads elsewhere, unless none of its steps does. -/
def EndsInStep (path : String) : Prop :=
  (∀ step ∈ names path, step = ".") ∨ (names path).getLast? ≠ some "."

theorem endsInStep_join (directory : String) {part : String} (h : IsPart part) :
    EndsInStep (join directory part) := by
  refine .inr ?_
  rw [names_join directory h, List.getLast?_concat]
  exact fun heq => h.ne_dot (Option.some_inj.mp heq)

theorem ofList_ne_dot {part : List Char} (h : isIdle part = false) :
    part ≠ [] ∧ String.ofList part ≠ "." := by
  constructor
  · rintro rfl
    cases h
  · intro heq
    have hdot : part = ['.'] := by
      rw [← @String.toList_ofList part, heq]
      rfl
    rw [hdot] at h
    cases h

theorem endsInStep_of_names {path : String} {start : List String} {parts : List (List Char)}
    (hstart : ∀ step ∈ start, step = ".")
    (h : names path = start ++ namesOf (dropIdleAtEnd parts)) : EndsInStep path := by
  rw [EndsInStep, h]
  rcases (dropIdleAtEnd parts).eq_nil_or_concat with hnil | ⟨before, last, hlast⟩
  · rw [hnil, namesOf_nil, List.append_nil]
    exact .inl hstart
  · rw [List.concat_eq_append] at hlast
    obtain ⟨hne, hnot⟩ := ofList_ne_dot (not_isIdle_of_dropIdleAtEnd hlast)
    rw [hlast, namesOf_append, namesOf_singleton hne, ← List.append_assoc, List.getLast?_concat]
    exact .inr fun heq => hnot (Option.some_inj.mp heq)

theorem EndsInStep.cases {path : String} (h : EndsInStep path) :
    (∀ step ∈ names path, step = ".") ∨ ∃ parent dots last, parent? path = some parent ∧
      names path = names parent ++ dots ++ [last] ∧ (∀ step ∈ dots, step = ".") ∧ last ≠ "." ∧
      EndsInStep parent := by
  rcases h with hall | hlast
  · exact .inl hall
  obtain ⟨idle, hidle, hdots⟩ := exists_dropIdleAtEnd_append (pieces (body path))
  have hnames := names_eq path
  have hbegin : ∀ step ∈ (if lead path.toList = ['.'] then ["."] else []), step = "." := by
    split <;> simp
  generalize hstart : (if lead path.toList = ['.'] then ["."] else []) = start at hnames hbegin
  rw [← hidle, namesOf_append, ← List.append_assoc] at hnames
  replace hdots := eq_dot_of_mem_namesOf hdots
  rcases (dropIdleAtEnd (pieces (body path))).eq_nil_or_concat with hnil | ⟨before, part, hkept⟩
  · refine .inl fun step hmem => ?_
    rw [hnames, hnil, namesOf_nil, List.append_nil] at hmem
    rcases List.mem_append.mp hmem with hmem | hmem
    · exact hbegin step hmem
    · exact hdots step hmem
  rw [List.concat_eq_append] at hkept
  obtain ⟨hne, hnot⟩ := ofList_ne_dot (not_isIdle_of_dropIdleAtEnd hkept)
  have hnone : namesOf idle = [] := by
    rcases (namesOf idle).eq_nil_or_concat with hnil | ⟨more, step, hmore⟩
    · exact hnil
    · rw [List.concat_eq_append] at hmore
      rw [hnames, hmore, ← List.append_assoc, List.getLast?_concat,
        hdots step (hmore ▸ List.mem_concat_self)] at hlast
      exact absurd rfl hlast
  obtain ⟨idle', hidle', hdots'⟩ := exists_dropIdleAtEnd_append before
  have hstarts : dropIdleAtEnd before <+: pieces (body path) := by
    have hkeeps := List.prefix_append (dropIdleAtEnd before) (idle' ++ ([part] ++ idle))
    rw [← List.append_assoc, hidle', ← List.append_assoc, ← hkept, hidle] at hkeeps
    exact hkeeps
  have hparent := names_of_kept hstarts
  rw [hstart] at hparent
  refine .inr ⟨_, namesOf idle', String.ofList part, parent?_of_kept hkept, ?_,
    eq_dot_of_mem_namesOf hdots', hnot, endsInStep_of_names hbegin hparent⟩
  rw [hnames, hparent, hnone, hkept, List.append_nil, namesOf_append, namesOf_singleton hne,
    List.append_assoc start, ← namesOf_append, hidle', List.append_assoc]

theorem names_prefix_of_mem_ancestors {path above : String} (h : above ∈ ancestors path) :
    names above <+: names path := by
  rw [ancestors] at h
  generalize path.length + 1 = budget at h
  induction budget generalizing path with
  | zero => cases h
  | succ budget ih =>
      rw [ancestorsWithin_succ] at h
      rcases List.mem_cons.mp h with rfl | h
      · exact List.prefix_rfl
      · rcases hparent : parent? path with _ | parent
        · rw [hparent] at h
          cases h
        · rw [hparent] at h
          exact (ih h).trans (names_parent?_starts hparent)

end FilePath

end CertRotation
