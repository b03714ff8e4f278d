import CertRotation.Proofs.Json.Tokens

namespace CertRotation.Json

section space

/-- White space between the parts of a text. -/
def isSpace (c : Char) : Bool := c == ' ' || c == '\n' || c == '\t' || c == '\r'

variable {space : List Char}

theorem skipSpace_append (h : ∀ c ∈ space, isSpace c = true) (text : List Char) :
    skipSpace (space ++ text) = skipSpace text := List.dropWhile_append_of_pos h

theorem skipSpace_cons {c : Char} (h : isSpace c = false) (text : List Char) :
    skipSpace (c :: text) = c :: text := List.dropWhile_cons_of_neg (Bool.not_eq_true _ |>.mpr h)

theorem skipSpace_skipSpace (text : List Char) : skipSpace (skipSpace text) = skipSpace text := by
  induction text with
  | nil => rfl
  | cons c text ih =>
      cases hc : isSpace c with
      | true =>
          rw [← List.singleton_append, skipSpace_append (by simpa using hc), ih]
      | false => rw [skipSpace_cons hc, skipSpace_cons hc]

theorem readValue?_skipSpace (budget : Nat) (text : List Char) :
    readValue? budget (skipSpace text) = readValue? budget text := by
  cases budget with
  | zero => rw [readValue?, readValue?]
  | succ budget => rw [readValue?, readValue?, skipSpace_skipSpace]

theorem readItems?_skipSpace (budget : Nat) (text : List Char) :
    readItems? budget (skipSpace text) = readItems? budget text := by
  cases budget with
  | zero => rw [readItems?, readItems?]
  | succ budget => rw [readItems?, readItems?, readValue?_skipSpace]

theorem readMembers?_skipSpace (budget : Nat) (text : List Char) :
    readMembers? budget (skipSpace text) = readMembers? budget text := by
  cases budget with
  | zero => rw [readMembers?, readMembers?]
  | succ budget => rw [readMembers?, readMembers?, skipSpace_skipSpace]

end space

/-- A text is read as a value, whatever follows it. -/
def Reads (value : Json) (text : List Char) : Prop :=
  ∀ budget rest, text.length ≤ budget → Ends rest →
    readValue? budget (text ++ rest) = some (value, rest)

/-- A text is read as the items of an array, white space and the bracket following it. -/
def ReadsItems (items : List Json) (text : List Char) : Prop :=
  ∀ budget space rest, text.length < budget → (∀ c ∈ space, isSpace c = true) →
    readItems? budget (text ++ (space ++ ']' :: rest)) = some (items, rest)

/-- A text is read as the members of an object, white space and the brace following it. -/
def ReadsMembers (members : List (Option String × Json)) (text : List Char) : Prop :=
  ∀ budget space rest, text.length < budget → (∀ c ∈ space, isSpace c = true) →
    readMembers? budget (text ++ (space ++ '\x7d' :: rest)) = some (members, rest)

section values

variable {value : Json} {text space : List Char}

theorem Reads.space_append (h : Reads value text) (hspace : ∀ c ∈ space, isSpace c = true) :
    Reads value (space ++ text) := by
  intro budget rest hbudget hrest
  rw [List.length_append] at hbudget
  rw [List.append_assoc, ← readValue?_skipSpace, skipSpace_append hspace, readValue?_skipSpace]
  exact h budget rest (by omega) hrest

theorem reads_cons {c : Char} (h : ∀ budget rest, text.length ≤ budget → Ends rest →
    readValue? (budget + 1) (c :: (text ++ rest)) = some (value, rest)) :
    Reads value (c :: text) := by
  intro budget rest hbudget hrest
  cases budget with
  | zero => cases hbudget
  | succ budget => exact h budget rest (Nat.le_of_succ_le_succ hbudget) hrest

theorem reads_null : Reads null ['n', 'u', 'l', 'l'] := reads_cons fun _ _ _ _ => rfl

theorem reads_bool (value : Bool) : Reads (bool value) (compact (bool value)) := by
  cases value with
  | true => exact reads_cons fun _ _ _ _ => rfl
  | false => exact reads_cons fun _ _ _ _ => rfl

theorem readValue?_quote (budget : Nat) (rest : List Char) :
    readValue? (budget + 1) ('"' :: rest) =
      (readText? rest).map fun (value, rest) => (str (value.map String.ofList), rest) := rfl

theorem reads_quote (s : String) : Reads (str (some s)) (quote s) := by
  refine reads_cons fun budget rest _ _ => ?_
  have hstep := readValue?_quote budget (s.toList.flatMap escape ++ '"' :: rest)
  rw [readText?_flatMap_escape] at hstep
  simpa using hstep

theorem readValue?_number {c : Char} (hc : c = '-' ∨ Text.isDigit c = true) (budget : Nat)
    (rest : List Char) :
    readValue? (budget + 1) (c :: rest) =
      (readNumber? (c :: rest)).map fun (value, rest) => (number value, rest) := by
  have hne : ∀ d : Char, (d = '-' ∨ Text.isDigit d = true) = False → c ≠ d := by
    rintro d hd rfl
    rw [← hd]
    exact hc
  have hspace : isSpace c = false := by
    simp [isSpace, hne ' ' (by decide), hne '\n' (by decide), hne '\t' (by decide),
      hne '\r' (by decide)]
  rw [readValue?, skipSpace_cons hspace]
  split
  case h_1 heq => cases heq
  case h_8 => rfl
  all_goals
    rename_i heq
    cases heq
    exact absurd hc (by decide)

theorem reads_number {n : JsonNumber} (h : n.IsProper) : Reads (number n) n.text := by
  have hhead : ∃ c text, n.text = c :: text ∧ (c = '-' ∨ Text.isDigit c = true) := by
    rw [JsonNumber.text_eq]
    rcases n.negative with _ | _
    · rcases hinteger : n.integer with _ | ⟨c, integer⟩
      · exact absurd hinteger h.integer.ne_nil
      · exact ⟨c, _, rfl, .inr (h.integer.all c (by simp [hinteger]))⟩
    · exact ⟨'-', _, rfl, .inl rfl⟩
  obtain ⟨c, text, htext, hc⟩ := hhead
  rw [htext]
  refine reads_cons fun budget rest _ hrest => ?_
  have hread := readNumber?_text h hrest
  rw [htext, List.cons_append] at hread
  rw [readValue?_number hc, hread]
  rfl

theorem reads_array_nil : Reads (array []) ['[', ']'] := reads_cons fun _ _ _ _ => rfl

theorem readItems?_bracket (budget : Nat) (rest : List Char) :
    readItems? budget (']' :: rest) = none := by
  rcases budget with _ | _ | budget
  · rfl
  · rfl
  · rfl

theorem readMembers?_brace (budget : Nat) (rest : List Char) :
    readMembers? budget ('\x7d' :: rest) = none := by
  rcases budget with _ | budget
  · rfl
  · rfl

theorem readValue?_bracket (budget : Nat) (rest : List Char) :
    readValue? (budget + 1) ('[' :: rest) = match skipSpace rest with
      | ']' :: rest => some (array [], rest)
      | rest => (readItems? budget rest).map fun (items, rest) => (array items, rest) := rfl

theorem reads_array {items : List Json} (h : ReadsItems items text)
    (hspace : ∀ c ∈ space, isSpace c = true) :
    Reads (array items) ('[' :: (text ++ space ++ [']'])) := by
  refine reads_cons fun budget rest hbudget _ => ?_
  simp only [List.length_append, List.length_singleton] at hbudget
  have hread := h budget space rest (by omega) hspace
  rw [← readItems?_skipSpace] at hread
  simp only [List.append_assoc, List.singleton_append]
  rw [readValue?_bracket]
  split
  · rename_i heq
    rw [heq, readItems?_bracket] at hread
    cases hread
  · rw [hread]
    rfl

theorem reads_object_nil : Reads (object []) ['\x7b', '\x7d'] := reads_cons fun _ _ _ _ => rfl

theorem readValue?_brace (budget : Nat) (rest : List Char) :
    readValue? (budget + 1) ('\x7b' :: rest) = match skipSpace rest with
      | '\x7d' :: rest => some (object [], rest)
      | rest => (readMembers? budget rest).map fun (members, rest) => (object members, rest) := rfl

theorem reads_object {members : List (Option String × Json)} (h : ReadsMembers members text)
    (hspace : ∀ c ∈ space, isSpace c = true) :
    Reads (object members) ('\x7b' :: (text ++ space ++ ['\x7d'])) := by
  refine reads_cons fun budget rest hbudget _ => ?_
  simp only [List.length_append, List.length_singleton] at hbudget
  have hread := h budget space rest (by omega) hspace
  rw [← readMembers?_skipSpace] at hread
  simp only [List.append_assoc, List.singleton_append]
  rw [readValue?_brace]
  split
  · rename_i heq
    rw [heq, readMembers?_brace] at hread
    cases hread
  · rw [hread]
    rfl

theorem ends_cons {c : Char} (hc : Text.isDigit c = false ∧ c ≠ '.' ∧ c ≠ 'e' ∧ c ≠ 'E')
    (rest : List Char) : Ends (c :: rest) := by
  intro d hd
  cases hd
  exact hc

theorem ends_of_isSpace {c : Char} (h : isSpace c = true) (rest : List Char) :
    Ends (c :: rest) := by
  refine ends_cons ?_ rest
  simp only [isSpace, Bool.or_eq_true, beq_iff_eq] at h
  rcases h with ((rfl | rfl) | rfl) | rfl
  all_goals decide

theorem ends_space_append {c : Char} (hspace : ∀ c ∈ space, isSpace c = true)
    (hc : Text.isDigit c = false ∧ c ≠ '.' ∧ c ≠ 'e' ∧ c ≠ 'E') (rest : List Char) :
    Ends (space ++ c :: rest) := by
  rcases space with _ | ⟨d, space⟩
  · exact ends_cons hc rest
  · exact ends_of_isSpace (hspace d List.mem_cons_self) _

theorem readsItems_singleton (h : Reads value text) : ReadsItems [value] text := by
  intro budget space rest hbudget hspace
  cases budget with
  | zero => cases hbudget
  | succ budget =>
      have hread := h budget (space ++ ']' :: rest) (Nat.le_of_lt_succ hbudget)
        (ends_space_append hspace (by decide) rest)
      simp only [readItems?, hread, Option.bind_eq_bind, Option.bind_some,
        skipSpace_append hspace]
      rfl

theorem readsItems_cons {items : List Json} {more : List Char} (h : Reads value text)
    (hmore : ReadsItems items more) : ReadsItems (value :: items) (text ++ ',' :: more) := by
  intro budget space rest hbudget hspace
  simp only [List.length_append, List.length_cons] at hbudget
  cases budget with
  | zero => cases hbudget
  | succ budget =>
      have hread := h budget (',' :: (more ++ (space ++ ']' :: rest))) (by omega)
        (ends_cons (by decide) _)
      have hskip : ∀ text, skipSpace (',' :: text) = ',' :: text := fun _ => rfl
      simp only [readItems?, List.append_assoc, List.cons_append, hread, Option.bind_eq_bind,
        Option.bind_some, hskip, hmore budget space rest (by omega) hspace]
      rfl

section members

variable {name : String} {before : List Char}

theorem readMembers?_name (hbefore : ∀ c ∈ before, isSpace c = true) (budget : Nat)
    (rest : List Char) :
    readMembers? (budget + 1) (before ++ quote name ++ ':' :: rest) =
      (readValue? budget rest).bind fun (value, rest) =>
        match skipSpace rest with
        | '\x7d' :: rest => some ([(some name, value)], rest)
        | ',' :: rest =>
          (readMembers? budget rest).bind fun (members, rest) =>
            some ((some name, value) :: members, rest)
        | _ => none := by
  have hquote : skipSpace (before ++ quote name ++ ':' :: rest) =
      '"' :: (name.toList.flatMap escape ++ '"' :: ':' :: rest) := by
    rw [List.append_assoc, skipSpace_append hbefore]
    simp only [quote, List.cons_append, List.append_assoc]
    rfl
  have hcolon : skipSpace (':' :: rest) = ':' :: rest := rfl
  rw [readMembers?, hquote]
  simp only [readText?_flatMap_escape, Option.bind_eq_bind, Option.bind_some, hcolon,
    Option.map_some, String.ofList_toList]
  rfl

theorem readsMembers_singleton (hbefore : ∀ c ∈ before, isSpace c = true)
    (h : Reads value text) :
    ReadsMembers [(some name, value)] (before ++ quote name ++ ':' :: text) := by
  intro budget space rest hbudget hspace
  simp only [List.length_append, List.length_cons] at hbudget
  cases budget with
  | zero => cases hbudget
  | succ budget =>
      have hread := h budget (space ++ '\x7d' :: rest) (by omega)
        (ends_space_append hspace (by decide) rest)
      rw [List.append_assoc, List.cons_append, readMembers?_name hbefore, hread]
      simp only [Option.bind_some, skipSpace_append hspace]
      rfl

theorem readsMembers_cons {members : List (Option String × Json)} {more : List Char}
    (hbefore : ∀ c ∈ before, isSpace c = true) (h : Reads value text)
    (hmore : ReadsMembers members more) :
    ReadsMembers ((some name, value) :: members)
      (before ++ quote name ++ ':' :: text ++ ',' :: more) := by
  intro budget space rest hbudget hspace
  simp only [List.length_append, List.length_cons] at hbudget
  cases budget with
  | zero => cases hbudget
  | succ budget =>
      have hread := h budget (',' :: (more ++ (space ++ '\x7d' :: rest))) (by omega)
        (ends_cons (by decide) _)
      have hskip : ∀ text, skipSpace (',' :: text) = ',' :: text := fun _ => rfl
      rw [List.append_assoc, List.append_assoc, List.cons_append, List.cons_append,
        readMembers?_name hbefore, hread]
      simp only [Option.bind_some, hskip, hmore budget space rest (by omega) hspace]

end members

end values

/-- A value that can be written: its numbers have digits, and its texts are all there. -/
inductive IsProper : Json → Prop
  | null : IsProper null
  | bool (value : Bool) : IsProper (bool value)
  | number {value : JsonNumber} (h : value.IsProper) : IsProper (number value)
  | str (value : String) : IsProper (str (some value))
  | array {items : List Json} (h : ∀ item ∈ items, IsProper item) : IsProper (array items)
  | object {members : List (Option String × Json)} (hname : ∀ m ∈ members, m.1.isSome = true)
      (h : ∀ m ∈ members, IsProper m.2) : IsProper (object members)

theorem isSpace_of_mem_newLine (depth : Nat) : ∀ c ∈ newLine depth, isSpace c = true := by
  intro c hc
  rcases List.mem_cons.mp hc with rfl | hc
  · rfl
  · rw [List.eq_of_mem_replicate hc]
    rfl

theorem isSpace_of_mem_blank : ∀ c ∈ [' '], isSpace c = true := by
  intro c hc
  rw [List.mem_singleton.mp hc]
  rfl

theorem readsItems_indentedItems {depth : Nat} {items : List Json} (hne : items ≠ [])
    (h : ∀ item ∈ items, Reads item (indentedAt depth item)) :
    ReadsItems items (indentedItems depth items) := by
  induction items with
  | nil => exact absurd rfl hne
  | cons item items ih =>
      have hitem := (h item List.mem_cons_self).space_append (isSpace_of_mem_newLine depth)
      cases items with
      | nil => exact readsItems_singleton hitem
      | cons next items =>
          exact readsItems_cons hitem
            (ih (List.cons_ne_nil _ _) fun item hmem => h item (List.mem_cons_of_mem _ hmem))

theorem readsMembers_indentedMembers {depth : Nat} {members : List (Option String × Json)}
    (hne : members ≠ []) (hname : ∀ m ∈ members, m.1.isSome = true)
    (h : ∀ m ∈ members, Reads m.2 (indentedAt depth m.2)) :
    ReadsMembers members (indentedMembers depth members) := by
  induction members with
  | nil => exact absurd rfl hne
  | cons member members ih =>
      obtain ⟨name, value⟩ := member
      obtain ⟨name, rfl⟩ := Option.isSome_iff_exists.mp (hname _ List.mem_cons_self)
      have hvalue : Reads value (' ' :: indentedAt depth value) :=
        (h _ List.mem_cons_self).space_append isSpace_of_mem_blank
      have hnewLine := isSpace_of_mem_newLine depth
      cases members with
      | nil => exact readsMembers_singleton hnewLine hvalue
      | cons next members =>
          have hmore := ih (List.cons_ne_nil _ _)
            (fun m hmem => hname m (List.mem_cons_of_mem _ hmem))
            fun m hmem => h m (List.mem_cons_of_mem _ hmem)
          exact readsMembers_cons hnewLine hvalue hmore

theorem reads_indentedAt {value : Json} (h : value.IsProper) (depth : Nat) :
    Reads value (indentedAt depth value) := by
  induction h generalizing depth with
  | null => exact reads_null
  | bool value => exact reads_bool value
  | number h => exact reads_number h
  | str value => exact reads_quote value
  | @array items h ih =>
      cases items with
      | nil => exact reads_array_nil
      | cons item items =>
          exact reads_array (readsItems_indentedItems (List.cons_ne_nil _ _)
            fun item hmem => ih item hmem (depth + 1)) (isSpace_of_mem_newLine depth)
  | @object members hname h ih =>
      cases members with
      | nil => exact reads_object_nil
      | cons member members =>
          exact reads_object (readsMembers_indentedMembers (List.cons_ne_nil _ _) hname
            fun m hmem => ih m hmem (depth + 1)) (isSpace_of_mem_newLine depth)

section compact

theorem exists_compactItems {items : List Json} (hne : items ≠ [])
    (h : ∀ item ∈ items, Reads item (compact item)) :
    ∃ text, compactItems items = text ++ [']'] ∧ ReadsItems items text := by
  induction items with
  | nil => exact absurd rfl hne
  | cons item items ih =>
      have hitem := h item List.mem_cons_self
      cases items with
      | nil => exact ⟨compact item, by rw [compactItems], readsItems_singleton hitem⟩
      | cons next items =>
          obtain ⟨text, htext, hmore⟩ :=
            ih (List.cons_ne_nil _ _) fun item hmem => h item (List.mem_cons_of_mem _ hmem)
          refine ⟨compact item ++ ',' :: text, ?_, readsItems_cons hitem hmore⟩
          rw [compactItems, htext]
          · simp
          · simp

theorem exists_compactMembers {members : List (Option String × Json)} (hne : members ≠ [])
    (hname : ∀ m ∈ members, m.1.isSome = true) (h : ∀ m ∈ members, Reads m.2 (compact m.2)) :
    ∃ text, compactMembers members = text ++ ['\x7d'] ∧ ReadsMembers members text := by
  induction members with
  | nil => exact absurd rfl hne
  | cons member members ih =>
      obtain ⟨name, value⟩ := member
      obtain ⟨name, rfl⟩ := Option.isSome_iff_exists.mp (hname _ List.mem_cons_self)
      have hvalue : Reads value (compact value) := h _ List.mem_cons_self
      have hspace : ∀ c ∈ ([] : List Char), isSpace c = true := fun c hc => by cases hc
      cases members with
      | nil =>
          refine ⟨_, ?_, readsMembers_singleton hspace hvalue⟩
          rw [compactMembers]
          simp
      | cons next members =>
          obtain ⟨text, htext, hmore⟩ := ih (List.cons_ne_nil _ _)
            (fun m hmem => hname m (List.mem_cons_of_mem _ hmem))
            fun m hmem => h m (List.mem_cons_of_mem _ hmem)
          refine ⟨_, ?_, readsMembers_cons hspace hvalue hmore⟩
          rw [compactMembers, htext]
          · simp
          · simp

theorem reads_compact {value : Json} (h : value.IsProper) : Reads value (compact value) := by
  have hspace : ∀ c ∈ ([] : List Char), isSpace c = true := fun c hc => by cases hc
  induction h with
  | null => exact reads_null
  | bool value => exact reads_bool value
  | number h => exact reads_number h
  | str value => exact reads_quote value
  | @array items h ih =>
      cases items with
      | nil => exact reads_array_nil
      | cons item items =>
          obtain ⟨text, htext, hread⟩ := exists_compactItems (List.cons_ne_nil _ _) ih
          rw [compact, htext]
          simpa using reads_array hread hspace
  | @object members hname h ih =>
      cases members with
      | nil => exact reads_object_nil
      | cons member members =>
          obtain ⟨text, htext, hread⟩ := exists_compactMembers (List.cons_ne_nil _ _) hname ih
          rw [compact, htext]
          simpa using reads_object hread hspace

end compact

theorem parse?_of_reads {value : Json} {text : List Char} (h : Reads value text) :
    parse? (String.ofList text) = some value := by
  have hread := h (text.length + 1) [] (Nat.le_succ _) (fun c hc => by cases hc)
  rw [List.append_nil] at hread
  simp only [parse?, String.toList_ofList, hread, Option.bind_eq_bind, Option.bind_some]
  rfl

theorem parse?_indentedText {value : Json} (h : value.IsProper) :
    parse? value.indentedText = some value := parse?_of_reads (reads_indentedAt h 0)

theorem parse?_compactText {value : Json} (h : value.IsProper) :
    parse? value.compactText = some value := parse?_of_reads (reads_compact h)

end CertRotation.Json
