import CertRotation.Proofs.IpAddress
import CertRotation.Proofs.Text.Decimal
import Mathlib.Data.Nat.Digits.Lemmas

/-!
The text of an address gives it back. Groups are read as far as they go, so the gap of a version 6
address is found where its two colons stand; no group is taken for a version 4 address, because the
dots of one are missing.
-/

namespace CertRotation.IpAddress

section numbers

variable {radix n : ℕ} {rest : List Char}

theorem hexValue?_digitChar : ∀ n < 16, Octets.hexValue? n.digitChar = some n := by decide

theorem digitValue?_digitChar (hradix : radix ≤ 16) (h : n < radix) :
    digitValue? radix n.digitChar = some n := by
  rw [digitValue?, hexValue?_digitChar n (by omega)]
  simp [h]

theorem digits_spec (hbase : 1 < radix) (hradix : radix ≤ 16) (n : ℕ) :
    (∀ c ∈ digits radix n, (digitValue? radix c).isSome = true) ∧
      (digits radix n).foldl (fun acc c => acc * radix + (digitValue? radix c).getD 0) 0 = n := by
  induction n using Nat.base_induction radix hbase with
  | single m hm =>
      rw [digits, Nat.toDigits_of_lt_base hm]
      simp [digitValue?_digitChar hradix hm]
  | digit m k hk hm ih =>
      obtain ⟨hall, hvalue⟩ := ih
      have happend : digits radix (radix * m + k) = digits radix m ++ [k.digitChar] := by
        rw [digits, digits, ← Nat.toDigits_append_toDigits hbase hm hk, Nat.toDigits_of_lt_base hk]
      rw [happend]
      constructor
      · intro c hc
        rcases List.mem_append.mp hc with hc | hc
        · exact hall c hc
        · rw [List.mem_singleton.mp hc, digitValue?_digitChar hradix hk]
          rfl
      · rw [List.foldl_append, hvalue]
        simp [digitValue?_digitChar hradix hk, Nat.mul_comm]

/-- A text that does not go on with a digit. -/
def EndsNumber (radix : ℕ) (rest : List Char) : Prop :=
  ∀ c, rest.head? = some c → digitValue? radix c = none

theorem endsNumber_nil : EndsNumber radix [] := by
  intro c hc
  cases hc

theorem endsNumber_cons {c : Char} (h : digitValue? radix c = none) :
    EndsNumber radix (c :: rest) := by
  intro d hd
  cases hd
  exact h

theorem takeWhile_digits (hbase : 1 < radix) (hradix : radix ≤ 16) (h : EndsNumber radix rest) :
    (digits radix n ++ rest).takeWhile (fun c => (digitValue? radix c).isSome) =
      digits radix n := by
  rw [List.takeWhile_append_of_pos (digits_spec hbase hradix n).1]
  cases rest with
  | nil => simp
  | cons c rest =>
      rw [List.takeWhile_cons_of_neg]
      · simp
      · simp [h c rfl]

theorem readNumber?_digits {maxDigits : ℕ} {leadingZeros : Bool} (hbase : 1 < radix)
    (hradix : radix ≤ 16) (hlength : (digits radix n).length ≤ maxDigits)
    (hzeros : leadingZeros = true ∨ radix = 10) (h : EndsNumber radix rest) :
    readNumber? radix maxDigits leadingZeros (digits radix n ++ rest) = some (n, rest) := by
  have hleading : ¬(leadingZeros = false ∧ (digits radix n).head? = some '0' ∧
      (digits radix n).length > 1) := by
    rintro ⟨hnone, hhead, hmany⟩
    obtain rfl : radix = 10 := hzeros.resolve_left (by simp [hnone])
    by_cases hn : n = 0
    · simp [hn, digits] at hmany
    · exact Text.head?_toDigits_ne n hn hhead
  have hne : digits radix n ≠ [] := Nat.toDigits_ne_nil
  rw [readNumber?, takeWhile_digits hbase hradix h, (digits_spec hbase hradix n).2]
  simp only [List.drop_left]
  rw [if_neg]
  simpa [hne, Nat.not_lt.mpr hlength] using hleading

end numbers

section separators

variable {α : Type} {separator : Char}

theorem intercalate_map_cons (separator : Char) (write : α → List Char) (item : α)
    (items : List α) :
    [separator].intercalate ((item :: items).map write) =
      write item ++ items.flatMap fun item => separator :: write item := by
  induction items generalizing item with
  | nil => simp [List.intercalate]
  | cons next items ih =>
      have hnext := ih next
      rw [List.map_cons] at hnext
      rw [List.map_cons, List.map_cons, List.intercalate_cons_cons, hnext]
      simp

theorem endsNumber_flatMap {radix : ℕ} {rest : List Char} (write : α → List Char) (items : List α)
    (hseparator : digitValue? radix separator = none) (h : EndsNumber radix rest) :
    EndsNumber radix (items.flatMap (fun item => separator :: write item) ++ rest) := by
  cases items with
  | nil => exact h
  | cons item items => exact endsNumber_cons hseparator

theorem readSeparator?_cons (separator : Char) (rest : List Char) :
    readSeparator? separator false (separator :: rest) = some rest := if_pos rfl

end separators

section dotted

variable {text rest : List Char}

theorem readDotted?_succ {count : ℕ} {isFirst : Bool} {octet : UInt8}
    (hseparator : readSeparator? '.' isFirst text = some (digits 10 octet.toNat ++ rest))
    (h : EndsNumber 10 rest) :
    readDotted? (count + 1) isFirst text =
      (readDotted? count false rest).map fun (octets, rest) => (octet :: octets, rest) := by
  have hlt := octet.toNat_lt
  have hlength : (digits 10 octet.toNat).length ≤ 3 :=
    (Nat.length_toDigits_le_iff (by decide) (by decide)).mpr (by omega)
  have hnumber : readNumber? 10 3 false (digits 10 octet.toNat ++ rest) =
      some (octet.toNat, rest) :=
    readNumber?_digits (by decide) (by decide) hlength (.inr rfl) h
  have hoctet : ¬octet.toNat > 255 := by omega
  simp only [readDotted?, hseparator, Option.bind_eq_bind, Option.bind_some, hnumber, hoctet,
    if_false, UInt8.ofNat_toNat]
  cases readDotted? count false rest with
  | none => rfl
  | some found => rfl

theorem readDotted?_flatMap (octets : List UInt8) (h : EndsNumber 10 rest) :
    readDotted? octets.length false
      (octets.flatMap (fun octet => '.' :: digits 10 octet.toNat) ++ rest) =
        some (octets, rest) := by
  induction octets with
  | nil => rfl
  | cons octet octets ih =>
      have hends := @endsNumber_flatMap UInt8 '.' 10 rest (fun octet => digits 10 octet.toNat)
        octets (by decide) h
      rw [List.length_cons, List.flatMap_cons, List.append_assoc, List.cons_append,
        readDotted?_succ (readSeparator?_cons _ _) hends, ih]
      rfl

theorem readDotted?_dotted (octet : UInt8) (octets : List UInt8) (h : EndsNumber 10 rest) :
    readDotted? (octets.length + 1) true (dotted (octet :: octets) ++ rest) =
      some (octet :: octets, rest) := by
  have hends := @endsNumber_flatMap UInt8 '.' 10 rest (fun octet => digits 10 octet.toNat)
    octets (by decide) h
  rw [dotted, intercalate_map_cons, List.append_assoc, readDotted?_succ rfl hends,
    readDotted?_flatMap octets h]
  rfl

theorem mem_of_readDotted? {count : ℕ} {text : List Char} {octets : List UInt8}
    (h : readDotted? (count + 2) true text = some (octets, rest)) : '.' ∈ text := by
  obtain ⟨⟨n, after⟩, hnumber, hoctets⟩ := Option.bind_eq_some_iff.mp h
  obtain ⟨taken, rfl, -⟩ := leaves_of_readNumber? hnumber
  simp only at hoctets
  split at hoctets
  · cases hoctets
  · obtain ⟨_, hmore, -⟩ := Option.bind_eq_some_iff.mp hoctets
    obtain ⟨_, hseparator, -⟩ := Option.bind_eq_some_iff.mp hmore
    apply List.mem_append_right
    cases after with
    | nil => cases hseparator
    | cons c after =>
        rw [readSeparator?] at hseparator
        split at hseparator
        · rename_i hc
          simp [hc]
        · cases hseparator

theorem readDotted?_eq_none {text : List Char} (h : '.' ∉ text) (count : ℕ) :
    readDotted? (count + 2) true text = none := by
  cases hread : readDotted? (count + 2) true text with
  | none => rfl
  | some found => exact absurd (mem_of_readDotted? hread) h

end dotted

section groups

variable {text rest : List Char} {limit : ℕ}

theorem embedded_eq_none (h : '.' ∉ text) (isFirst : Bool) :
    (readSeparator? ':' isFirst text).bind (readDotted? 4 true) = none := by
  refine Option.bind_eq_none_iff.mpr fun after hafter => ?_
  obtain ⟨taken, rfl, -⟩ := leaves_of_readSeparator? (by decide) hafter
  exact readDotted?_eq_none (fun hmem => h (List.mem_append_right taken hmem)) 2

variable {isFirst : Bool}

theorem readGroups_succ
    (h : (readSeparator? ':' isFirst text).bind (readDotted? 4 true) = none) :
    readGroups (limit + 1) isFirst text =
      match (readSeparator? ':' isFirst text).bind (readNumber? 16 4 true) with
      | none => ([], false, text)
      | some (g, rest) =>
        let (groups, dotted, rest) := readGroups limit false rest
        (UInt16.ofNat g :: groups, dotted, rest) := by
  rcases hread : (readSeparator? ':' isFirst text).bind (readNumber? 16 4 true) with
    _ | ⟨g, after⟩
  · simp only [readGroups, h, ite_self, hread]
  · simp only [readGroups, h, ite_self, hread]

theorem readGroups_embedded {a b c d : UInt8}
    (h : (readSeparator? ':' isFirst text).bind (readDotted? 4 true) = some ([a, b, c, d], rest)) :
    readGroups (limit + 2) isFirst text = ([group a b, group c d], true, rest) := by
  rw [readGroups, if_neg (Nat.succ_ne_zero limit), h]

/-- A text in which no group follows: its end, or the two colons of a gap. -/
def EndsGroups (rest : List Char) : Prop := rest = [] ∨ ∃ more, rest = ':' :: ':' :: more

theorem EndsGroups.endsNumber (h : EndsGroups rest) : EndsNumber 16 rest := by
  rcases h with rfl | ⟨more, rfl⟩
  · exact endsNumber_nil
  · exact endsNumber_cons (by decide)

theorem readGroups_of_endsGroups (h : EndsGroups rest) (hdot : '.' ∉ rest) (limit : ℕ)
    (isFirst : Bool) : readGroups limit isFirst rest = ([], false, rest) := by
  cases limit with
  | zero => rfl
  | succ limit =>
      rw [readGroups_succ (embedded_eq_none hdot isFirst)]
      rcases h with rfl | ⟨more, rfl⟩
      · cases isFirst with
        | true => rfl
        | false => rfl
      · cases isFirst with
        | true => rfl
        | false => rfl

theorem notMem_digits {c : Char} (h : digitValue? 16 c = none) (n : ℕ) : c ∉ digits 16 n := by
  intro hmem
  have hdigit := (digits_spec (by decide) (by decide) n).1 c hmem
  rw [h] at hdigit
  cases hdigit

theorem notMem_flatMap_digits (groups : List UInt16) :
    '.' ∉ groups.flatMap fun g => ':' :: digits 16 g.toNat := by
  intro hmem
  obtain ⟨g, -, hmem⟩ := List.mem_flatMap.mp hmem
  rcases List.mem_cons.mp hmem with hc | hmem
  · revert hc
    decide
  · exact notMem_digits (by decide) g.toNat hmem

theorem notMem_colons (groups : List UInt16) : '.' ∉ colons groups := by
  cases groups with
  | nil => simp [colons]
  | cons g groups =>
      rw [colons, intercalate_map_cons, List.mem_append, not_or]
      exact ⟨notMem_digits (by decide) g.toNat, notMem_flatMap_digits groups⟩

theorem readGroups_cons {g : UInt16} (hdot : '.' ∉ text)
    (hseparator : readSeparator? ':' isFirst text = some (digits 16 g.toNat ++ rest))
    (h : EndsNumber 16 rest) :
    readGroups (limit + 1) isFirst text =
      (g :: (readGroups limit false rest).1, (readGroups limit false rest).2) := by
  have hlt := g.toNat_lt
  have hlength : (digits 16 g.toNat).length ≤ 4 :=
    (Nat.length_toDigits_le_iff (by decide) (by decide)).mpr (by omega)
  have hnumber : readNumber? 16 4 true (digits 16 g.toNat ++ rest) = some (g.toNat, rest) :=
    readNumber?_digits (by decide) (by decide) hlength (.inl rfl) h
  rw [readGroups_succ (embedded_eq_none hdot isFirst), hseparator]
  simp only [Option.bind_some, hnumber, UInt16.ofNat_toNat]

theorem readGroups_flatMap {groups : List UInt16} (hlimit : groups.length ≤ limit)
    (h : EndsGroups rest) (hdot : '.' ∉ rest) :
    readGroups limit false (groups.flatMap (fun g => ':' :: digits 16 g.toNat) ++ rest) =
      (groups, false, rest) := by
  induction groups generalizing limit with
  | nil => exact readGroups_of_endsGroups h hdot limit false
  | cons g groups ih =>
      cases limit with
      | zero => cases hlimit
      | succ limit =>
          have hplain : '.' ∉ (g :: groups).flatMap (fun g => ':' :: digits 16 g.toNat) ++ rest :=
            List.mem_append.not.mpr (not_or.mpr ⟨notMem_flatMap_digits _, hdot⟩)
          have hends := @endsNumber_flatMap UInt16 ':' 16 rest (fun g => digits 16 g.toNat)
            groups (by decide) h.endsNumber
          rw [List.flatMap_cons, List.append_assoc, List.cons_append] at hplain ⊢
          rw [readGroups_cons hplain (readSeparator?_cons _ _) hends,
            ih (Nat.le_of_succ_le_succ hlimit)]

theorem readGroups_colons {groups : List UInt16} (hlimit : groups.length ≤ limit)
    (h : EndsGroups rest) (hdot : '.' ∉ rest) :
    readGroups limit true (colons groups ++ rest) = (groups, false, rest) := by
  cases groups with
  | nil => exact readGroups_of_endsGroups h hdot limit true
  | cons g groups =>
      cases limit with
      | zero => cases hlimit
      | succ limit =>
          have hplain : '.' ∉ colons (g :: groups) ++ rest :=
            List.mem_append.not.mpr (not_or.mpr ⟨notMem_colons _, hdot⟩)
          have hends := @endsNumber_flatMap UInt16 ':' 16 rest (fun g => digits 16 g.toNat)
            groups (by decide) h.endsNumber
          rw [colons, intercalate_map_cons, List.append_assoc] at hplain ⊢
          rw [readGroups_cons hplain rfl hends,
            readGroups_flatMap (Nat.le_of_succ_le_succ hlimit) h hdot]

end groups

section gap

variable {groups : List UInt16}

theorem drop_of_zeroRuns {i run : ℕ} (h : (zeroRuns groups)[i]? = some run) :
    groups.drop i = List.replicate run 0 ++ groups.drop (i + run) := by
  induction groups generalizing i run with
  | nil => cases h
  | cons g groups ih =>
      cases i with
      | succ i =>
          rw [Nat.succ_add]
          exact ih h
      | zero =>
          rw [zeroRuns, List.getElem?_cons_zero, Option.some.injEq] at h
          split at h
          · rename_i hg
            have hrest : groups = List.replicate ((zeroRuns groups).headD 0) 0 ++
                groups.drop ((zeroRuns groups).headD 0) := by
              cases hruns : zeroRuns groups with
              | nil => rfl
              | cons first runs =>
                  have hfirst := @ih 0 first (by rw [hruns]; rfl)
                  simpa using hfirst
            subst h hg
            rw [Nat.zero_add, List.drop_succ_cons, List.replicate_succ, List.cons_append, ← hrest]
            rfl
          · subst h
            rfl

theorem foldl_max_mem (runs : List ℕ) (least : ℕ) :
    runs.foldl max least = least ∨ runs.foldl max least ∈ runs := by
  induction runs generalizing least with
  | nil => exact .inl rfl
  | cons run runs ih =>
      rw [List.foldl_cons]
      rcases ih (max least run) with h | h
      · rw [h]
        rcases Nat.le_total least run with hle | hle
        · rw [Nat.max_eq_right hle]
          exact .inr List.mem_cons_self
        · exact .inl (Nat.max_eq_left hle)
      · exact .inr (List.mem_cons_of_mem _ h)

/-- The longest run is one of the runs, so that leaving it out leaves out zero groups. -/
theorem longestRun_spec {start length : ℕ} (h : longestRun groups = (start, length))
    (hlength : 0 < length) :
    groups = groups.take start ++ List.replicate length 0 ++ groups.drop (start + length) ∧
      start + length ≤ groups.length := by
  obtain ⟨hstart, hlongest⟩ := Prod.mk.inj h
  have hmem : length ∈ zeroRuns groups := by
    rcases foldl_max_mem (zeroRuns groups) 0 with hzero | hmem
    · omega
    · rwa [hlongest] at hmem
  have hrun : (zeroRuns groups)[start]? = some length := by
    rw [← hstart, hlongest]
    exact List.getElem?_idxOf hmem
  have hdrop := drop_of_zeroRuns hrun
  constructor
  · rw [List.append_assoc, ← hdrop, List.take_append_drop]
  · have hcount := congrArg List.length hdrop
    simp only [List.length_drop, List.length_append, List.length_replicate] at hcount
    omega

theorem readV6?_colons (h : groups.length = 8) : readV6? (colons groups) = some (groups, []) := by
  have hread := @readGroups_colons [] 8 groups h.le (.inl rfl) (by simp)
  rw [List.append_nil] at hread
  simp only [readV6?, hread, h, if_true]

theorem readV6?_gap {front back : List UInt16} (h : front.length + back.length ≤ 7) :
    readV6? (colons front ++ [':', ':'] ++ colons back) =
      some (front ++ List.replicate (8 - front.length - back.length) 0 ++ back, []) := by
  have hdot : '.' ∉ ':' :: ':' :: colons back := by simp [notMem_colons]
  have hfront := @readGroups_colons (':' :: ':' :: colons back) 8 front (by omega)
    (.inr ⟨_, rfl⟩) hdot
  have hback := @readGroups_colons [] (7 - front.length) back (by omega) (.inl rfl) (by simp)
  rw [List.append_nil] at hback
  have hlength : front.length ≠ 8 := by omega
  simp only [readV6?, List.append_assoc, List.cons_append, List.nil_append, hfront, hlength,
    if_false, Bool.false_eq_true, hback]

theorem readV6?_mapped (g h : UInt16) :
    readV6? ("::ffff:".toList ++
      dotted [(g / 256).toUInt8, g.toUInt8, (h / 256).toUInt8, h.toUInt8]) =
        some ([0, 0, 0, 0, 0, 0xffff, g, h], []) := by
  have hdotted := @readDotted?_dotted [] (g / 256).toUInt8 [g.toUInt8, (h / 256).toUInt8, h.toUInt8]
    endsNumber_nil
  rw [List.append_nil] at hdotted
  generalize dotted [(g / 256).toUInt8, g.toUInt8, (h / 256).toUInt8, h.toUInt8] = last at *
  have hlast : readGroups 6 false (':' :: last) = ([g, h], true, []) := by
    have hembedded : (readSeparator? ':' false (':' :: last)).bind (readDotted? 4 true) =
        some ([(g / 256).toUInt8, g.toUInt8, (h / 256).toUInt8, h.toUInt8], []) := by
      rw [readSeparator?_cons]
      exact hdotted
    rw [readGroups_embedded hembedded, group_octets, group_octets]
  have hback : readGroups 7 true ('f' :: 'f' :: 'f' :: 'f' :: ':' :: last) =
      ([0xffff, g, h], true, []) := by
    have hgroup : readNumber? 16 4 true ('f' :: 'f' :: 'f' :: 'f' :: ':' :: last) =
        some (0xffff, ':' :: last) := rfl
    rw [readGroups_succ rfl]
    simp only [readSeparator?, Option.bind_some, hgroup, hlast]
    rfl
  have hfront : readGroups 8 true (':' :: ':' :: 'f' :: 'f' :: 'f' :: 'f' :: ':' :: last) =
      ([], false, ':' :: ':' :: 'f' :: 'f' :: 'f' :: 'f' :: ':' :: last) := by
    rw [readGroups_succ rfl]
    rfl
  have htext : "::ffff:".toList ++ last =
      ':' :: ':' :: 'f' :: 'f' :: 'f' :: 'f' :: ':' :: last := rfl
  rw [htext, readV6?, hfront]
  simp only [List.length_nil, Nat.sub_zero, hback]
  rfl

theorem readV6?_textV6 (h : groups.length = 8) : readV6? (textV6 groups) = some (groups, []) := by
  unfold textV6
  split
  · exact readV6?_mapped _ _
  · split
    rename_i start length hrun
    split
    · rename_i hlong
      obtain ⟨hgroups, hle⟩ := longestRun_spec hrun (by omega)
      have hread := @readV6?_gap (groups.take start) (groups.drop (start + length)) (by
        simp only [List.length_take, List.length_drop]
        omega)
      have hzeros : 8 - (groups.take start).length - (groups.drop (start + length)).length =
          length := by
        simp only [List.length_take, List.length_drop]
        omega
      rw [hread, hzeros, ← hgroups]
    · exact readV6?_colons h

theorem readDotted?_textV6 (groups : List UInt16) : readDotted? 4 true (textV6 groups) = none := by
  unfold textV6
  split
  · rfl
  · split
    split
    · apply readDotted?_eq_none
      simp [notMem_colons]
    · exact readDotted?_eq_none (notMem_colons _) 2

end gap

/-- Every address is read back from its text. -/
theorem parse?_text (address : IpAddress) : parse? address.text = some address := by
  cases address with
  | v4 octets =>
      rcases octets with ⟨⟨list⟩, hlength⟩
      match list, hlength with
      | [a, b, c, d], _ =>
          have hread : readDotted? 4 true (dotted [a, b, c, d] ++ []) = some ([a, b, c, d], []) :=
            readDotted?_dotted a [b, c, d] endsNumber_nil
          rw [List.append_nil] at hread
          simp only [parse?, text, Vector.toList, hread]
  | v6 groups =>
      rcases groups with ⟨⟨list⟩, hlength⟩
      match list, hlength with
      | [a, b, c, d, e, f, g, h], _ =>
          have hread := @readV6?_textV6 [a, b, c, d, e, f, g, h] rfl
          simp only [parse?, text, Vector.toList, readDotted?_textV6, hread]

end CertRotation.IpAddress
