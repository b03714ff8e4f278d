import CertRotation.Pem
import CertRotation.Proofs.Fallible
import CertRotation.Proofs.Text.Base64
import CertRotation.Proofs.Text.Utf8

namespace CertRotation.Pem

theorem markerEnd?_append_of_notMem {first : UInt8} {marker text : Octets} (h : first ∉ text)
    (rest : Octets) :
    markerEnd? (first :: marker) (first :: marker) (text ++ rest) =
      (markerEnd? (first :: marker) (first :: marker) rest).map (· + text.length) := by
  induction text with
  | nil => simp
  | cons byte text ih =>
      have hbyte : (byte == first) = false := by
        have := List.ne_of_not_mem_cons h
        simpa using fun h => this h.symm
      rw [List.cons_append, markerEnd?, hbyte]
      simp only [Bool.false_eq_true, if_false]
      rw [ih (List.not_mem_of_not_mem_cons h)]
      rw [Option.map_map]
      congr 1

theorem markerEnd?_append_self (marker expected rest : Octets) :
    markerEnd? marker expected (expected ++ rest) = some expected.length := by
  induction expected with
  | nil => simp [markerEnd?]
  | cons e expected ih => simp [markerEnd?, ih]

theorem splitAt?_append {first : UInt8} {marker text : Octets} (h : first ∉ text)
    (rest : Octets) :
    splitAt? (first :: marker) (text ++ (first :: marker) ++ rest) = some (text, rest) := by
  rw [splitAt?, List.append_assoc, markerEnd?_append_of_notMem h, markerEnd?_append_self]
  simp only [Option.map_some, Option.some.injEq, Prod.mk.injEq]
  constructor
  · rw [Nat.add_sub_cancel_left, List.take_left]
  · rw [← List.append_assoc, Nat.add_comm, ← List.length_append, List.drop_left]

theorem splitAt?_eq_none {first : UInt8} {marker text : Octets} (h : first ∉ text) :
    splitAt? (first :: marker) text = none := by
  have hnone : markerEnd? (first :: marker) (first :: marker) (text ++ []) = none :=
    markerEnd?_append_of_notMem h []
  rw [List.append_nil] at hnone
  rw [splitAt?, hnone]
  rfl

/-- The lines of data between the markers of a written block. -/
def dataLines (contents : Octets) : List Char :=
  (chunks 64 (Base64.encode contents)).flatMap (· ++ ['\n'])

theorem chunks_ne_nil {columns : Nat} (hcolumns : columns ≠ 0) (text : List Char) :
    ∀ line ∈ chunks columns text, line ≠ [] ∧ ∀ c ∈ line, c ∈ text := by
  induction text using chunks.induct columns with
  | case1 text h =>
      rw [chunks, dif_pos h]
      simp
  | case2 text h ih =>
      rw [not_or] at h
      rw [chunks, dif_neg (by simpa using h)]
      intro line hline
      rcases List.mem_cons.mp hline with rfl | hline
      · refine ⟨by simp [hcolumns, h.2], fun c hc => List.mem_of_mem_take hc⟩
      · obtain ⟨hne, hmem⟩ := ih line hline
        exact ⟨hne, fun c hc => List.mem_of_mem_drop (hmem c hc)⟩

theorem flatten_chunks {columns : Nat} (hcolumns : columns ≠ 0) (text : List Char) :
    (chunks columns text).flatten = text := by
  induction text using chunks.induct columns with
  | case1 text h =>
      rw [chunks, dif_pos h]
      simpa [hcolumns, eq_comm] using h
  | case2 text h ih =>
      rw [chunks, dif_neg h, List.flatten_cons, ih, List.take_append_drop]

theorem mem_dataLines {contents : Octets} {c : Char} (h : c ∈ dataLines contents) :
    c = '\n' ∨ Base64.isDataChar c = true := by
  obtain ⟨line, hline, hc⟩ := List.mem_flatMap.mp h
  rcases List.mem_append.mp hc with hc | hc
  · exact .inr (Base64.isDataChar_of_mem_encode ((chunks_ne_nil (by decide) _ line hline).2 c hc))
  · exact .inl (List.mem_singleton.mp hc)

theorem isBlank_of_isDataChar {c : Char} (h : Base64.isDataChar c = true) :
    Text.isBlank c = false := by
  simp only [Base64.isDataChar, Bool.and_eq_true, decide_eq_true_eq] at h
  simp only [Text.isBlank, Bool.or_eq_false_iff, Bool.and_eq_false_iff, decide_eq_false_iff_not,
    beq_eq_false_iff_ne]
  omega

theorem filter_dataLines (contents : Octets) :
    (dataLines contents).filter (fun c => !Text.isBlank c) = Base64.encode contents := by
  have hlines : ∀ lines : List (List Char),
      (∀ line ∈ lines, ∀ c ∈ line, Text.isBlank c = false) →
        (lines.flatMap (· ++ ['\n'])).filter (fun c => !Text.isBlank c) = lines.flatten := by
    intro lines hblank
    induction lines with
    | nil => rfl
    | cons line lines ih =>
        have hline : line.filter (fun c => !Text.isBlank c) = line := by
          rw [List.filter_eq_self]
          intro c hc
          simp [hblank line (by simp) c hc]
        have hend : ['\n'].filter (fun c => !Text.isBlank c) = [] := by decide
        rw [List.flatMap_cons, List.filter_append, List.filter_append, hline, hend,
          List.append_nil, ih fun line hline => hblank line (by simp [hline]), List.flatten_cons]
  rw [dataLines, hlines]
  · exact flatten_chunks (by decide) _
  · intro line hline c hc
    exact isBlank_of_isDataChar
      (Base64.isDataChar_of_mem_encode ((chunks_ne_nil (by decide) _ line hline).2 c hc))

theorem markerEnd?_lines {lines : List Octets} (h : ∀ line ∈ lines, line ≠ [] ∧ 10 ∉ line) :
    markerEnd? [10, 10] [10, 10] (lines.flatMap (· ++ [10])) = none ∧
      markerEnd? [10, 10] [10] (lines.flatMap (· ++ [10])) = none := by
  induction lines with
  | nil => exact ⟨rfl, rfl⟩
  | cons line lines ih =>
      have hrest := (ih fun line hline => h line (by simp [hline])).2
      have hwhole : ∀ text : Octets, 10 ∉ text →
          markerEnd? [10, 10] [10, 10] (text ++ 10 :: lines.flatMap (· ++ [10])) = none := by
        intro text htext
        rw [markerEnd?_append_of_notMem htext]
        simp [markerEnd?, hrest]
      obtain ⟨hne, hline⟩ := h line (by simp)
      obtain ⟨byte, line, rfl⟩ := List.exists_cons_of_ne_nil hne
      have hbyte : (byte == 10) = false := by
        have := List.ne_of_not_mem_cons hline
        simpa using fun h => this h.symm
      constructor
      · simpa using hwhole (byte :: line) hline
      · simp [markerEnd?, hbyte, hwhole line (List.not_mem_of_not_mem_cons hline)]

/-- The octets of the data of a written block. -/
def dataOctets (contents : Octets) : Octets := Utf8.encode (String.ofList (dataLines contents))

theorem dataOctets_eq (contents : Octets) :
    dataOctets contents = (chunks 64 (Base64.encode contents)).flatMap fun line =>
      (line.map fun c => UInt8.ofNat c.toNat) ++ [10] := by
  rw [dataOctets, Utf8.encode_ofList_of_ascii, dataLines, List.map_flatMap]
  · congr 1
    funext line
    rw [List.map_append]
    rfl
  · intro c hc
    rcases mem_dataLines hc with rfl | hc
    · decide
    · simp only [Base64.isDataChar, Bool.and_eq_true, decide_eq_true_eq] at hc
      exact hc.1.2

theorem octet_of_isDataChar {c : Char} (h : Base64.isDataChar c = true) :
    33 ≤ (UInt8.ofNat c.toNat).toNat ∧ (UInt8.ofNat c.toNat).toNat < 128 ∧
      (UInt8.ofNat c.toNat).toNat ≠ 45 := by
  simp only [Base64.isDataChar, Bool.and_eq_true, decide_eq_true_eq, bne_iff_ne, ne_eq] at h
  have hdash : c.toNat ≠ 45 := fun hc => h.2 (Char.toNat_inj.mp hc)
  rw [UInt8.toNat_ofNat']
  omega

theorem mem_dataLine {contents : Octets} {line : List Char}
    (hline : line ∈ chunks 64 (Base64.encode contents)) {byte : UInt8}
    (h : byte ∈ line.map fun c => UInt8.ofNat c.toNat) :
    33 ≤ byte.toNat ∧ byte.toNat < 128 ∧ byte.toNat ≠ 45 := by
  obtain ⟨c, hc, rfl⟩ := List.mem_map.mp h
  exact octet_of_isDataChar
    (Base64.isDataChar_of_mem_encode ((chunks_ne_nil (by decide) _ line hline).2 c hc))

theorem mem_dataOctets {contents : Octets} {byte : UInt8} (h : byte ∈ dataOctets contents) :
    byte = 10 ∨ 33 ≤ byte.toNat ∧ byte.toNat < 128 ∧ byte.toNat ≠ 45 := by
  rw [dataOctets_eq] at h
  obtain ⟨line, hline, hbyte⟩ := List.mem_flatMap.mp h
  rcases List.mem_append.mp hbyte with hbyte | hbyte
  · exact .inr (mem_dataLine hline hbyte)
  · exact .inl (List.mem_singleton.mp hbyte)

theorem splitHeaders_dataOctets (contents : Octets) :
    splitHeaders (dataOctets contents) = ([], dataOctets contents) := by
  have hlines : splitAt? [10, 10] (dataOctets contents) = none := by
    have hnone := (@markerEnd?_lines ((chunks 64 (Base64.encode contents)).map
      fun line => line.map fun c => UInt8.ofNat c.toNat) ?_).1
    · rw [splitAt?, dataOctets_eq, ← List.flatMap_map (f := fun line : List Char =>
        line.map fun c => UInt8.ofNat c.toNat) (g := fun line => line ++ [10]), hnone]
      rfl
    · intro line hline
      obtain ⟨chars, hchars, rfl⟩ := List.mem_map.mp hline
      refine ⟨by simpa using (chunks_ne_nil (by decide) _ chars hchars).1, fun h => ?_⟩
      have := mem_dataLine hchars h
      revert this
      decide
  have hreturns : splitAt? [13, 10, 13, 10] (dataOctets contents) = none := by
    apply splitAt?_eq_none
    intro h
    have := mem_dataOctets h
    revert this
    decide
  simp only [splitHeaders, hlines, hreturns, Option.getD_none]

/-- A block can be written so that it is read back: its label is not empty and has no dash. -/
def Block.IsWritable (block : Block) : Prop := block.label ≠ "" ∧ 45 ∉ Utf8.encode block.label

instance (block : Block) : Decidable block.IsWritable := inferInstanceAs (Decidable (_ ∧ _))

/-- What stands between the markers of a written block. -/
def Block.raw (block : Block) : RawBlock :=
  ⟨Utf8.encode block.label, dataOctets block.contents, Utf8.encode block.label⟩

theorem encode_render (block : Block) :
    Utf8.encode (render block) =
      beginMarker ++ Utf8.encode block.label ++ dashes ++ 10 :: dataOctets block.contents ++
        endMarker ++ Utf8.encode block.label ++ dashes ++ [10] := by
  have hdata : String.join ((chunks 64 (Base64.encode block.contents)).map
      fun line => String.ofList line ++ "\n") = String.ofList (dataLines block.contents) := by
    apply String.toList_injective
    simp only [String.toList_join, List.flatMap_map, String.toList_append, String.toList_ofList,
      dataLines]
    rfl
  have hopening : Utf8.encode "-----BEGIN " = beginMarker := by decide
  have hclosing : Utf8.encode "-----END " = endMarker := by decide
  have hend : Utf8.encode "-----\n" = dashes ++ [10] := by decide
  simp only [render, hdata, Utf8.encode_append, hopening, hclosing, hend, dataOctets]
  simp

theorem not_blank_of_visible {byte : UInt8} (h : 33 ≤ byte.toNat) :
    (byte == 32 || byte == 9 || byte == 13 || byte == 10) = false := by
  simp only [Bool.or_eq_false_iff, beq_eq_false_iff_ne, ne_eq, ← UInt8.toNat_inj]
  refine ⟨⟨⟨?_, ?_⟩, ?_⟩, ?_⟩ <;>
    · intro hbyte
      rw [hbyte] at h
      revert h
      decide

theorem skipBlanks_cons_of_visible {byte : UInt8} (h : 33 ≤ byte.toNat) (rest : Octets) :
    skipBlanks (byte :: rest) = byte :: rest := by
  rw [skipBlanks, List.dropWhile_cons_of_neg]
  simp only [not_blank_of_visible h, Bool.false_eq_true, not_false_eq_true]

theorem skipBlanks_lineFeed (rest : Octets) : skipBlanks (10 :: rest) = skipBlanks rest := by
  rw [skipBlanks, List.dropWhile_cons_of_pos (by decide)]
  rfl

theorem skipBlanks_dataOctets (contents rest : Octets) :
    skipBlanks (dataOctets contents ++ (endMarker ++ rest)) =
      dataOctets contents ++ (endMarker ++ rest) := by
  cases hlines : chunks 64 (Base64.encode contents) with
  | nil =>
      rw [dataOctets_eq, hlines]
      exact skipBlanks_cons_of_visible (by decide) _
  | cons line lines =>
      have hline : line ∈ chunks 64 (Base64.encode contents) := by simp [hlines]
      obtain ⟨c, chars, rfl⟩ :=
        List.exists_cons_of_ne_nil (chunks_ne_nil (by decide) _ line hline).1
      rw [dataOctets_eq, hlines]
      simp only [List.flatMap_cons, List.map_cons, List.cons_append]
      apply skipBlanks_cons_of_visible
      exact (mem_dataLine hline (by simp)).1

/-- The first block of a text that begins with a written block is that block. -/
theorem nextRaw?_render {block : Block} (h : block.IsWritable) (rest : Octets) :
    nextRaw? (Utf8.encode (render block) ++ rest) = some (block.raw, skipBlanks rest) := by
  have hdata : (45 : UInt8) ∉ dataOctets block.contents := by
    intro hmem
    have := mem_dataOctets hmem
    revert this
    decide
  have hopening : ∀ text, splitAt? beginMarker (beginMarker ++ text) = some ([], text) :=
    fun text => @splitAt?_append _ _ [] (by simp) text
  have hlabel : ∀ text, splitAt? dashes (Utf8.encode block.label ++ (dashes ++ text)) =
      some (Utf8.encode block.label, text) := by
    intro text
    rw [← List.append_assoc]
    exact splitAt?_append h.2 text
  have hbody : ∀ text, splitAt? endMarker (dataOctets block.contents ++ (endMarker ++ text)) =
      some (dataOctets block.contents, text) := by
    intro text
    rw [← List.append_assoc]
    exact splitAt?_append hdata text
  rw [encode_render, nextRaw?]
  simp only [List.append_assoc, List.cons_append, List.nil_append, Option.bind_eq_bind]
  rw [hopening, Option.bind_some, hlabel, Option.bind_some, skipBlanks_lineFeed,
    skipBlanks_dataOctets, hbody, Option.bind_some, hlabel, Option.bind_some, skipBlanks_lineFeed]
  rfl

theorem readBlock_raw {block : Block} (h : block.IsWritable) :
    readBlock block.raw = .ok block := by
  have hlabel : block.label.isEmpty = false := by
    simpa [String.isEmpty_iff] using h.1
  have hheaders : Utf8.decode? [] = some "" := Utf8.decode?_encode ""
  simp only [readBlock, Block.raw, Utf8.decode?_encode, hlabel, Bool.false_eq_true, if_false,
    ne_eq, not_true_eq_false, splitHeaders_dataOctets, hheaders]
  simp only [dataOctets, Utf8.decode?_encode, String.toList_ofList, filter_dataLines,
    Base64.decode?_encode]
  rfl

theorem rawBlocks_flatMap_render {blocks : List Block} (h : ∀ block ∈ blocks, block.IsWritable) :
    rawBlocks (blocks.flatMap fun block => Utf8.encode (render block)) = blocks.map Block.raw := by
  induction blocks with
  | nil =>
      rw [rawBlocks]
      rfl
  | cons block blocks ih =>
      have hrest : skipBlanks (blocks.flatMap fun block => Utf8.encode (render block)) =
          blocks.flatMap fun block => Utf8.encode (render block) := by
        cases blocks with
        | nil => rfl
        | cons next blocks =>
            rw [List.flatMap_cons, encode_render]
            exact skipBlanks_cons_of_visible (by decide) _
      have hnext := nextRaw?_render (h block (by simp))
        (blocks.flatMap fun block => Utf8.encode (render block))
      rw [hrest] at hnext
      rw [List.flatMap_cons, rawBlocks]
      split
      · rename_i hnone
        rw [hnext] at hnone
        cases hnone
      · rename_i raw rest hsome
        rw [hnext] at hsome
        cases hsome
        rw [ih fun block hblock => h block (by simp [hblock]), List.map_cons]

theorem parse_flatMap_render {blocks : List Block} (h : ∀ block ∈ blocks, block.IsWritable) :
    parse (blocks.flatMap fun block => Utf8.encode (render block)) = .ok blocks := by
  rw [parse, rawBlocks_flatMap_render h]
  induction blocks with
  | nil => rfl
  | cons block blocks ih =>
      rw [List.map_cons, List.mapM_cons, readBlock_raw (h block (by simp)),
        ih fun block hblock => h block (by simp [hblock])]
      rfl

theorem parse_render {block : Block} (h : block.IsWritable) :
    parse (Utf8.encode (render block)) = .ok [block] := by
  have hblocks := @parse_flatMap_render [block] (by simpa using h)
  simpa using hblocks

end CertRotation.Pem
