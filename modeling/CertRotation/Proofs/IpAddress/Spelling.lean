import CertRotation.Proofs.IpAddress
import CertRotation.Proofs.Text.LowerCase

namespace CertRotation.IpAddress

open Text (lowerCase toLower_eq_iff)

variable {text middle rest : List Char}

theorem hexValue?_toLower (c : Char) : Octets.hexValue? c.toLower = Octets.hexValue? c := by
  have hascii : ∀ n < 128, Octets.hexValue? (Char.ofNat n).toLower =
      Octets.hexValue? (Char.ofNat n) := by decide
  cases hupper : c.isUpper with
  | true =>
      have hlt : c.toNat < 128 := by
        have hrange : c.val ≤ 'Z'.val := (of_decide_eq_true hupper).2
        rw [UInt32.le_iff_toNat_le] at hrange
        have hend : 'Z'.val.toNat = 90 := by decide
        rw [hend] at hrange
        exact Nat.lt_of_le_of_lt hrange (by decide)
      rw [← Char.ofNat_toNat c]
      exact hascii _ hlt
  | false => rw [Text.toLower_of_not_isUpper hupper]

theorem digitValue?_toLower (radix : Nat) (c : Char) :
    digitValue? radix c.toLower = digitValue? radix c := by
  rw [digitValue?, hexValue?_toLower, digitValue?]

theorem readNumber?_lowerCase (radix maxDigits : Nat) (leadingZeros : Bool) (text : List Char) :
    readNumber? radix maxDigits leadingZeros (lowerCase text) =
      (readNumber? radix maxDigits leadingZeros text).map (Prod.map id lowerCase) := by
  have hrun : (lowerCase text).takeWhile (fun c => (digitValue? radix c).isSome) =
      lowerCase (text.takeWhile fun c => (digitValue? radix c).isSome) := by
    rw [lowerCase, List.takeWhile_map]
    simp only [Function.comp_def, digitValue?_toLower]
    rfl
  unfold readNumber?
  simp only [hrun]
  generalize text.takeWhile (fun c => (digitValue? radix c).isSome) = run
  have hzero : (lowerCase run).head? = some '0' ↔ run.head? = some '0' := by
    rw [lowerCase, List.head?_map, Option.map_eq_some_iff]
    constructor
    · rintro ⟨c, hc, hlower⟩
      rw [hc, (toLower_eq_iff (by decide)).mp hlower]
    · intro h
      exact ⟨'0', h, by decide⟩
  have hvalue : (lowerCase run).foldl
      (fun acc c => acc * radix + (digitValue? radix c).getD 0) 0 =
      run.foldl (fun acc c => acc * radix + (digitValue? radix c).getD 0) 0 := by
    simp only [lowerCase, List.foldl_map, digitValue?_toLower]
  have hlength : (lowerCase run).length = run.length := List.length_map _
  simp only [Text.lowerCase_eq_nil_iff, hzero, hvalue, hlength]
  split
  · rfl
  · simp [lowerCase, List.map_drop]

theorem readSeparator?_lowerCase {separator : Char} (h : separator.isAlpha = false)
    (isFirst : Bool) (text : List Char) :
    readSeparator? separator isFirst (lowerCase text) =
      (readSeparator? separator isFirst text).map lowerCase := by
  cases isFirst with
  | true => rfl
  | false =>
      cases text with
      | nil => rfl
      | cons c text =>
          change (if c.toLower = separator then some (lowerCase text) else none) =
            (if c = separator then some text else none).map lowerCase
          simp only [toLower_eq_iff h]
          split
          · rfl
          · rfl

theorem readDotted?_lowerCase (count : Nat) (isFirst : Bool) (text : List Char) :
    readDotted? count isFirst (lowerCase text) =
      (readDotted? count isFirst text).map (Prod.map id lowerCase) := by
  induction count generalizing isFirst text with
  | zero => rfl
  | succ count ih =>
      have hdot : '.'.isAlpha = false := by decide
      simp only [readDotted?, readSeparator?_lowerCase hdot, Option.bind_eq_bind]
      cases readSeparator? '.' isFirst text with
      | none => rfl
      | some after =>
          simp only [Option.map_some, Option.bind_some, readNumber?_lowerCase]
          cases readNumber? 10 3 false after with
          | none => rfl
          | some found =>
              simp only [Option.map_some, Option.bind_some, Prod.map, id, ih]
              split
              · rfl
              · cases readDotted? count false found.2 with
                | none => rfl
                | some last => rfl

theorem bind_readDotted?_lowerCase (isFirst : Bool) (text : List Char) :
    (readSeparator? ':' isFirst (lowerCase text)).bind (readDotted? 4 true) =
      ((readSeparator? ':' isFirst text).bind (readDotted? 4 true)).map (Prod.map id lowerCase) := by
  rw [readSeparator?_lowerCase (by decide)]
  cases readSeparator? ':' isFirst text with
  | none => rfl
  | some after => exact readDotted?_lowerCase 4 true after

theorem bind_readNumber?_lowerCase (isFirst : Bool) (text : List Char) :
    (readSeparator? ':' isFirst (lowerCase text)).bind (readNumber? 16 4 true) =
      ((readSeparator? ':' isFirst text).bind (readNumber? 16 4 true)).map
        (Prod.map id lowerCase) := by
  rw [readSeparator?_lowerCase (by decide)]
  cases readSeparator? ':' isFirst text with
  | none => rfl
  | some after => exact readNumber?_lowerCase 16 4 true after

/-- The groups from a group that was found on; none if there was none. -/
def groupsFrom (limit : Nat) (text : List Char) :
    Option (Nat × List Char) → List UInt16 × Bool × List Char
  | none => ([], false, text)
  | some (g, rest) =>
    let (groups, dotted, rest) := readGroups limit false rest
    (UInt16.ofNat g :: groups, dotted, rest)

theorem readGroups_lowerCase (limit : Nat) (isFirst : Bool) (text : List Char) :
    readGroups limit isFirst (lowerCase text) =
      (readGroups limit isFirst text).map id (Prod.map id lowerCase) := by
  induction limit generalizing isFirst text with
  | zero => rfl
  | succ limit ih =>
      have hembedded : (if limit = 0 then none else
          (readSeparator? ':' isFirst (lowerCase text)).bind (readDotted? 4 true)) =
          (if limit = 0 then none else
            (readSeparator? ':' isFirst text).bind (readDotted? 4 true)).map
              (Prod.map id lowerCase) := by
        rw [bind_readDotted?_lowerCase]
        split
        · rfl
        · rfl
      have hgroup (found : Option (Nat × List Char)) :
          groupsFrom limit (lowerCase text) (found.map (Prod.map id lowerCase)) =
            (groupsFrom limit text found).map id (Prod.map id lowerCase) := by
        cases found with
        | none => rfl
        | some found => simp only [groupsFrom, Option.map_some, Prod.map, id, ih]
      simp only [readGroups, hembedded, bind_readNumber?_lowerCase]
      generalize (if limit = 0 then none else
        (readSeparator? ':' isFirst text).bind (readDotted? 4 true)) = embedded
      -- Only four octets stand for two groups.
      rcases embedded with _ | ⟨_ | ⟨a, _ | ⟨b, _ | ⟨c, _ | ⟨d, _ | ⟨e, more⟩⟩⟩⟩⟩, last⟩
      · exact hgroup _
      · exact hgroup _
      · exact hgroup _
      · exact hgroup _
      · exact hgroup _
      · rfl
      · exact hgroup _

theorem readV6?_lowerCase (text : List Char) :
    readV6? (lowerCase text) = (readV6? text).map (Prod.map id lowerCase) := by
  have hcolon (c : Char) : c.toLower = ':' ↔ c = ':' := toLower_eq_iff (by decide)
  unfold readV6?
  rw [readGroups_lowerCase]
  rcases readGroups 8 true text with ⟨front, dotted, rest⟩
  simp only [Prod.map, id]
  split
  · rfl
  · split
    · rfl
    · split
      · rename_i rest' hgap
        rcases rest with _ | ⟨c, _ | ⟨c', rest⟩⟩
        · cases hgap
        · simp [lowerCase] at hgap
        · simp only [lowerCase, List.map_cons, List.cons.injEq, hcolon] at hgap
          obtain ⟨rfl, rfl, rfl⟩ := hgap
          have hback := readGroups_lowerCase (7 - front.length) true rest
          rw [lowerCase] at hback
          simp only [hback]
          rfl
      · rename_i hnoGap
        split
        · exact absurd rfl (hnoGap _)
        · rfl

theorem parse?_lowerCase (text : List Char) : parse? (lowerCase text) = parse? text := by
  unfold parse?
  rw [readDotted?_lowerCase, readV6?_lowerCase]
  rcases readDotted? 4 true text with _ | ⟨octets, _ | ⟨c, rest⟩⟩
  · rcases readV6? text with _ | ⟨groups, _ | ⟨c, rest⟩⟩
    · rfl
    · rfl
    · simp [lowerCase]
  · simp only [Option.map_some, Prod.map, id, lowerCase, List.map_nil]
    split
    · rfl
    · rfl
    · rename_i hnone
      cases hnone
  · simp [lowerCase]

/-- What a reader leaves of a text when what it takes does not end with a dot. -/
def LeavesAfterNoDot (text rest : List Char) : Prop :=
  ∃ taken, text = taken ++ rest ∧ taken.getLast? ≠ some '.'

theorem LeavesAfterNoDot.refl (text : List Char) : LeavesAfterNoDot text text :=
  ⟨[], rfl, by simp⟩

theorem LeavesAfterNoDot.trans (h : LeavesAfterNoDot text middle)
    (h' : LeavesAfterNoDot middle rest) : LeavesAfterNoDot text rest := by
  obtain ⟨taken, rfl, hlast⟩ := h
  obtain ⟨taken', rfl, hlast'⟩ := h'
  refine ⟨taken ++ taken', by simp, ?_⟩
  rw [List.getLast?_append, ne_eq, Option.or_eq_some_iff, not_or]
  exact ⟨hlast', fun h => hlast h.2⟩

theorem leavesAfterNoDot_of_colon : LeavesAfterNoDot (':' :: rest) rest :=
  ⟨[':'], rfl, by decide⟩

theorem leavesAfterNoDot_of_readNumber? {radix maxDigits n : Nat} {leadingZeros : Bool}
    (h : readNumber? radix maxDigits leadingZeros text = some (n, rest)) (before : List Char) :
    LeavesAfterNoDot (before ++ text) rest := by
  unfold readNumber? at h
  simp only at h
  split at h
  · cases h
  · rename_i hrun
    obtain ⟨-, rfl⟩ := Prod.mk.inj (Option.some.inj h)
    have hne := (not_or.mp hrun).1
    refine ⟨before ++ text.takeWhile fun c => (digitValue? radix c).isSome, ?_, ?_⟩
    · rw [List.append_assoc]
      congr 1
      exact (List.prefix_iff_eq_append.mp (List.takeWhile_prefix _)).symm
    · rw [List.getLast?_append, List.getLast?_eq_some_getLast hne, Option.some_or]
      intro hdot
      have hdigit := List.all_eq_true.mp List.all_takeWhile _ (List.getLast_mem hne)
      rw [Option.some.inj hdot] at hdigit
      cases hdigit

theorem leavesAfterNoDot_of_readDotted? {count : Nat} {isFirst : Bool} {octets : List UInt8}
    (h : readDotted? count isFirst text = some (octets, rest)) : LeavesAfterNoDot text rest := by
  induction count generalizing isFirst text octets with
  | zero =>
      cases h
      exact .refl _
  | succ count ih =>
      obtain ⟨after, hseparator, h⟩ := Option.bind_eq_some_iff.mp h
      obtain ⟨⟨n, after'⟩, hnumber, h⟩ := Option.bind_eq_some_iff.mp h
      obtain ⟨before, htext, -⟩ := leaves_of_readSeparator? (by decide) hseparator
      have hdigits := leavesAfterNoDot_of_readNumber? hnumber before
      rw [← htext] at hdigits
      simp only at h
      split at h
      · cases h
      · obtain ⟨⟨octets', last⟩, hrest, hpure⟩ := Option.bind_eq_some_iff.mp h
        cases hpure
        exact hdigits.trans (ih hrest)

theorem leavesAfterNoDot_of_readSeparator? {isFirst : Bool}
    (h : readSeparator? ':' isFirst text = some rest) : LeavesAfterNoDot text rest := by
  unfold readSeparator? at h
  split at h
  · cases h
    exact .refl _
  · split at h
    · rename_i hc
      cases h
      rw [hc]
      exact leavesAfterNoDot_of_colon
    · cases h
  · cases h

theorem leavesAfterNoDot_of_readGroups (limit : Nat) (isFirst : Bool) (text : List Char) :
    LeavesAfterNoDot text (readGroups limit isFirst text).2.2 := by
  induction limit generalizing isFirst text with
  | zero => exact .refl _
  | succ limit ih =>
      rw [readGroups]
      split
      · rename_i hembedded
        split at hembedded
        · cases hembedded
        · obtain ⟨after, hseparator, hdotted⟩ := Option.bind_eq_some_iff.mp hembedded
          exact (leavesAfterNoDot_of_readSeparator? hseparator).trans
            (leavesAfterNoDot_of_readDotted? hdotted)
      · split
        · exact .refl _
        · rename_i hgroup
          obtain ⟨after, hseparator, hnumber⟩ := Option.bind_eq_some_iff.mp hgroup
          have hdigits := leavesAfterNoDot_of_readNumber? hnumber []
          exact ((leavesAfterNoDot_of_readSeparator? hseparator).trans hdigits).trans (ih false _)

theorem leavesAfterNoDot_of_readV6? {groups : List UInt16}
    (h : readV6? text = some (groups, rest)) : LeavesAfterNoDot text rest := by
  have hfront := leavesAfterNoDot_of_readGroups 8 true text
  unfold readV6? at h
  simp only at h
  split at h
  · cases h
    exact hfront
  · split at h
    · cases h
    · split at h
      · rename_i after hgap
        cases h
        rw [hgap] at hfront
        refine (hfront.trans leavesAfterNoDot_of_colon).trans (leavesAfterNoDot_of_colon.trans ?_)
        exact leavesAfterNoDot_of_readGroups _ true after
      · cases h

theorem getLast?_of_parse? {address : IpAddress} (h : parse? text = some address) :
    text.getLast? ≠ some '.' := by
  have hwhole (hleaves : LeavesAfterNoDot text []) : text.getLast? ≠ some '.' := by
    obtain ⟨taken, rfl, hlast⟩ := hleaves
    rwa [List.append_nil]
  unfold parse? at h
  split at h
  · rename_i hdotted
    exact hwhole (leavesAfterNoDot_of_readDotted? hdotted)
  · cases h
  · split at h
    · rename_i hgroups
      exact hwhole (leavesAfterNoDot_of_readV6? hgroups)
    · cases h

end CertRotation.IpAddress
