import Mathlib.Data.List.Basic

namespace CertRotation.Text

/-- A text with its ASCII letters in lower case. -/
def lowerCase (text : List Char) : List Char := text.map Char.toLower

variable {c d : Char} {a b text : List Char}

theorem isAlpha_toLower_of_isUpper (h : c.isUpper = true) : c.toLower.isAlpha = true := by
  have hrange : c.val ≥ 'A'.val ∧ c.val ≤ 'Z'.val := of_decide_eq_true h
  have hlower : 97 ≤ c.val + 32 ∧ c.val + 32 ≤ 122 := by
    simp only [ge_iff_le, UInt32.le_iff_toNat_le, UInt32.toNat_add] at hrange ⊢
    have hends : 'A'.val.toNat = 65 ∧ 'Z'.val.toNat = 90 := by decide
    rw [hends.1, hends.2] at hrange
    simp only [UInt32.reduceToNat]
    omega
  have hval : c.toLower.val = c.val + 32 := congrArg Char.val (dif_pos hrange)
  rw [← hval] at hlower
  have hsmall : c.toLower.isLower = true :=
    Bool.and_eq_true_iff.mpr ⟨decide_eq_true hlower.1, decide_eq_true hlower.2⟩
  exact Bool.or_eq_true_iff.mpr (.inr hsmall)

theorem toLower_of_not_isUpper (h : c.isUpper = false) : c.toLower = c :=
  dif_neg (of_decide_eq_false h)

theorem toLower_eq_iff (h : d.isAlpha = false) : c.toLower = d ↔ c = d := by
  cases hupper : c.isUpper with
  | true =>
      constructor
      · rintro rfl
        rw [isAlpha_toLower_of_isUpper hupper] at h
        cases h
      · rintro rfl
        have halpha : c.isAlpha = true := Bool.or_eq_true_iff.mpr (.inl hupper)
        rw [halpha] at h
        cases h
  | false => rw [toLower_of_not_isUpper hupper]

theorem lowerCase_eq_nil_iff : lowerCase text = [] ↔ text = [] := List.map_eq_nil_iff

theorem lowerCase_splitOn (h : d.isAlpha = false) (text : List Char) :
    (lowerCase text).splitOn d = (text.splitOn d).map lowerCase := by
  induction text with
  | nil => rfl
  | cons c text ih =>
      have hsame : (c.toLower == d) = (c == d) := by
        rw [Bool.eq_iff_iff, beq_iff_eq, beq_iff_eq, toLower_eq_iff h]
      have hcons : lowerCase (c :: text) = c.toLower :: lowerCase text := rfl
      rw [hcons, List.splitOn_cons_eq_if_modifyHead, List.splitOn_cons_eq_if_modifyHead, ih, hsame]
      split
      · rfl
      · cases text.splitOn d with
        | nil => rfl
        | cons piece pieces => rfl

theorem lowerCase_eq_iff_splitOn (h : d.isAlpha = false) :
    lowerCase a = lowerCase b ↔ (a.splitOn d).map lowerCase = (b.splitOn d).map lowerCase := by
  rw [← lowerCase_splitOn h, ← lowerCase_splitOn h]
  constructor
  · intro hsame
    rw [hsame]
  · intro hpieces
    calc
      lowerCase a = [d].intercalate ((lowerCase a).splitOn d) := (List.intercalate_splitOn d).symm
      _ = [d].intercalate ((lowerCase b).splitOn d) := by rw [hpieces]
      _ = lowerCase b := List.intercalate_splitOn d

theorem exists_of_splitOn_cons {piece : List Char} {pieces : List (List Char)}
    (h : text.splitOn d = piece :: pieces) (hmore : pieces ≠ []) :
    ∃ rest, text = piece ++ d :: rest ∧ d ∉ piece ∧ rest.splitOn d = pieces := by
  induction text generalizing piece with
  | nil =>
      cases h
      exact absurd rfl hmore
  | cons c text ih =>
      rw [List.splitOn_cons_eq_if_modifyHead] at h
      split at h
      · rename_i hc
        obtain rfl := eq_of_beq hc
        cases h
        exact ⟨text, rfl, List.not_mem_nil, rfl⟩
      · rename_i hc
        cases hsplit : text.splitOn d with
        | nil => exact absurd hsplit (List.splitOn_ne_nil d text)
        | cons first others =>
            rw [hsplit] at h
            cases h
            obtain ⟨rest, rfl, hnot, hrest⟩ := ih hsplit
            refine ⟨rest, rfl, ?_, hrest⟩
            rw [List.mem_cons, not_or]
            exact ⟨fun heq => hc (beq_iff_eq.mpr heq.symm), hnot⟩

end CertRotation.Text
