import CertRotation.Proofs.Pem

namespace CertRotation.Pem

variable {marker text rest before after left : Octets} {raw : RawBlock}

theorem markerEnd?_append {expected : Octets} {stop : Nat}
    (h : markerEnd? marker expected text = some stop) (rest : Octets) :
    markerEnd? marker expected (text ++ rest) = some stop ∧ stop ≤ text.length := by
  induction text generalizing expected stop with
  | nil =>
      cases expected with
      | nil =>
          cases h
          exact ⟨by rw [markerEnd?], Nat.le_refl 0⟩
      | cons e expected => cases h
  | cons byte text ih =>
      cases expected with
      | nil =>
          cases h
          exact ⟨by rw [markerEnd?], Nat.zero_le _⟩
      | cons e expected =>
          rw [markerEnd?, Option.map_eq_some_iff] at h
          obtain ⟨count, hcount, rfl⟩ := h
          obtain ⟨hlonger, hle⟩ := ih hcount
          refine ⟨?_, Nat.succ_le_succ hle⟩
          rw [List.cons_append, markerEnd?, hlonger]
          rfl

theorem splitAt?_append_right (h : splitAt? marker text = some (before, after)) (rest : Octets) :
    splitAt? marker (text ++ rest) = some (before, after ++ rest) := by
  obtain ⟨stop, hstop, hparts⟩ := Option.map_eq_some_iff.mp h
  obtain ⟨rfl, rfl⟩ := Prod.mk.inj hparts
  obtain ⟨hlonger, hle⟩ := markerEnd?_append hstop rest
  rw [splitAt?, hlonger, Option.map_some, List.take_append_of_le_length (by omega),
    List.drop_append_of_le_length hle]

theorem skipBlanks_append (text rest : Octets) :
    skipBlanks (text ++ rest) =
      if skipBlanks text = [] then skipBlanks rest else skipBlanks text ++ rest := by
  have happend : skipBlanks (text ++ rest) =
      if (skipBlanks text).isEmpty then skipBlanks rest else skipBlanks text ++ rest :=
    List.dropWhile_append
  rw [happend]
  cases skipBlanks text with
  | nil => rfl
  | cons byte text => rfl

theorem nextRaw?_append (h : nextRaw? text = some (raw, left)) (rest : Octets) :
    nextRaw? (text ++ rest) =
      some (raw, if left = [] then skipBlanks rest else left ++ rest) := by
  simp only [nextRaw?, Option.bind_eq_bind, Option.bind_eq_some_iff] at h
  obtain ⟨⟨_, a⟩, ha, ⟨opening, b⟩, hb, ⟨body, c⟩, hc, ⟨closing, d⟩, hd, hraw⟩ := h
  obtain ⟨rfl, rfl⟩ := Prod.mk.inj (Option.some.inj hraw)
  have hbody : skipBlanks (b ++ rest) = skipBlanks b ++ rest := by
    rw [skipBlanks_append, if_neg]
    intro hblank
    rw [hblank] at hc
    cases hc
  simp only [nextRaw?, Option.bind_eq_bind, splitAt?_append_right ha, Option.bind_some,
    splitAt?_append_right hb, hbody, splitAt?_append_right hc, splitAt?_append_right hd,
    skipBlanks_append d rest]
  rfl

theorem nextRaw?_eq (text : Octets) : nextRaw? text =
    ((splitAt? beginMarker text).map Prod.snd).bind fun text => do
      let (opening, text) ← splitAt? dashes text
      let (body, text) ← splitAt? endMarker (skipBlanks text)
      let (closing, text) ← splitAt? dashes text
      return (⟨opening, body, closing⟩, skipBlanks text) := by
  rw [nextRaw?, Option.bind_map]
  rfl

theorem nextRaw?_cons_of_ne {byte : UInt8} (h : byte ≠ 45) (text : Octets) :
    nextRaw? (byte :: text) = nextRaw? text := by
  have hmarker : (splitAt? beginMarker (byte :: text)).map Prod.snd =
      (splitAt? beginMarker text).map Prod.snd := by
    have hstop : markerEnd? beginMarker beginMarker (byte :: text) =
        (markerEnd? beginMarker beginMarker text).map (· + 1) := by
      have hbyte : (byte == 45) = false := beq_eq_false_iff_ne.mpr h
      change (markerEnd? beginMarker (if byte == 45 then _ else beginMarker) text).map (· + 1) = _
      rw [hbyte]
      rfl
    rw [splitAt?, splitAt?, hstop, Option.map_map, Option.map_map, Option.map_map]
    rfl
  rw [nextRaw?_eq, nextRaw?_eq text, hmarker]

theorem nextRaw?_skipBlanks (text : Octets) : nextRaw? (skipBlanks text) = nextRaw? text := by
  induction text with
  | nil => rfl
  | cons byte text ih =>
      by_cases hblank : (byte == 32 || byte == 9 || byte == 13 || byte == 10) = true
      · have hdash : byte ≠ 45 := by
          rintro rfl
          revert hblank
          decide
        have hskip : skipBlanks (byte :: text) = skipBlanks text :=
          List.dropWhile_cons_of_pos hblank
        rw [hskip, nextRaw?_cons_of_ne hdash, ih]
      · have hkeep : skipBlanks (byte :: text) = byte :: text :=
          List.dropWhile_cons_of_neg hblank
        rw [hkeep]

theorem rawBlocks_of_none (h : nextRaw? text = none) : rawBlocks text = [] := by
  rw [rawBlocks]
  split
  · rfl
  · rename_i hsome
    rw [h] at hsome
    cases hsome

theorem rawBlocks_of_some (h : nextRaw? text = some (raw, left)) :
    rawBlocks text = raw :: rawBlocks left := by
  rw [rawBlocks]
  split
  · rename_i hnone
    rw [h] at hnone
    cases hnone
  · rename_i hsome
    rw [h] at hsome
    cases hsome
    rfl

theorem parse_nil : parse [] = .ok [] := by
  rw [parse, rawBlocks_of_none rfl]
  rfl

theorem rawBlocks_skipBlanks (text : Octets) : rawBlocks (skipBlanks text) = rawBlocks text := by
  cases hnext : nextRaw? text with
  | none =>
      rw [rawBlocks_of_none hnext, rawBlocks_of_none ((nextRaw?_skipBlanks text).trans hnext)]
  | some found =>
      obtain ⟨raw, left⟩ := found
      rw [rawBlocks_of_some hnext, rawBlocks_of_some ((nextRaw?_skipBlanks text).trans hnext)]

/-- What a file has after its last block. -/
def leftover (text : Octets) : Octets :=
  match _h : nextRaw? text with
  | none => text
  | some (_, rest) => leftover rest
termination_by text.length
decreasing_by exact nextRaw?_length_lt _h

theorem leftover_of_some (h : nextRaw? text = some (raw, left)) :
    leftover text = leftover left := by
  rw [leftover]
  split
  · rename_i hnone
    rw [h] at hnone
    cases hnone
  · rename_i hsome
    rw [h] at hsome
    cases hsome
    rfl

/-- A file of which nothing but blanks is left over. -/
def IsComplete (text : Octets) : Prop := skipBlanks (leftover text) = []

theorem isComplete_nil : IsComplete [] := by
  rw [IsComplete, leftover]
  rfl

theorem isComplete_render {block : Block} (h : block.IsWritable) :
    IsComplete (Utf8.encode (render block)) := by
  have hnext := nextRaw?_render h []
  rw [List.append_nil] at hnext
  rw [IsComplete, leftover_of_some hnext]
  exact isComplete_nil

theorem rawBlocks_append (h : IsComplete before) (rest : Octets) :
    rawBlocks (before ++ rest) = rawBlocks before ++ rawBlocks rest := by
  induction before using leftover.induct with
  | case1 text hnone =>
      have hblank : skipBlanks text = [] := by
        rw [IsComplete, leftover] at h
        split at h
        · exact h
        · rename_i hsome
          rw [hnone] at hsome
          cases hsome
      rw [rawBlocks_of_none hnone, List.nil_append, ← rawBlocks_skipBlanks, skipBlanks_append,
        if_pos hblank, rawBlocks_skipBlanks]
  | case2 text raw left hsome ih =>
      rw [IsComplete, leftover_of_some hsome] at h
      rw [rawBlocks_of_some hsome, rawBlocks_of_some (nextRaw?_append hsome rest), List.cons_append]
      congr 1
      split
      · rename_i hnil
        have hnone : rawBlocks [] = [] := rawBlocks_of_none rfl
        rw [hnil, rawBlocks_skipBlanks, hnone, List.nil_append]
      · exact ih h

/-- The blocks of a complete file and of what follows it. -/
theorem parse_append {blocks blocks' : List Block} (hcomplete : IsComplete before)
    (h : parse before = .ok blocks) (h' : parse rest = .ok blocks') :
    parse (before ++ rest) = .ok (blocks ++ blocks') := by
  rw [parse] at h h'
  rw [parse, rawBlocks_append hcomplete, List.mapM_append, h, h']
  rfl

theorem exists_rawBlocks_append (text rest : Octets) :
    ∃ more, rawBlocks (text ++ rest) = rawBlocks text ++ more := by
  induction text using leftover.induct with
  | case1 text hnone => exact ⟨_, by rw [rawBlocks_of_none hnone, List.nil_append]⟩
  | case2 text raw left hsome ih =>
      obtain ⟨more, hmore⟩ := ih
      rw [rawBlocks_of_some hsome, rawBlocks_of_some (nextRaw?_append hsome rest)]
      split
      · rename_i hnil
        have hnone : rawBlocks [] = [] := rawBlocks_of_none rfl
        exact ⟨_, by rw [hnil, hnone, List.cons_append, List.nil_append]⟩
      · exact ⟨more, by rw [hmore, List.cons_append]⟩

theorem exists_of_parse_append {blocks : List Block} (h : parse (text ++ rest) = .ok blocks) :
    ∃ first more, parse text = .ok first ∧ blocks = first ++ more := by
  obtain ⟨raws, hraws⟩ := exists_rawBlocks_append text rest
  rw [parse, hraws, List.mapM_append, bind_eq_ok_iff] at h
  obtain ⟨first, hfirst, h⟩ := h
  obtain ⟨more, -, h⟩ := bind_eq_ok_iff.mp h
  exact ⟨first, more, hfirst, (pure_eq_ok_iff.mp h).symm⟩

end CertRotation.Pem
