import CertRotation.Proofs.Binary64.Shortest
import CertRotation.Proofs.Json.Tokens

/-!
Numbers as JSON writes and reads them. What is read of a number between zero and one is the value of
its digits divided by a power of ten, both of which are numbers before they are divided: the digits
are rounded, the power is rounded, and so is the quotient.
-/

namespace CertRotation.JsonNumber

open Binary64

section digits

variable {digits : List Char}

theorem isProper_toDigits (n : ℕ) : IsProper ⟨false, Nat.toDigits 10 n, none, none⟩ where
  integer := Text.isDigits_toDigits n
  leading h := by
    by_cases hn : n = 0
    · rw [hn, Nat.toDigits_zero]
    · exact absurd h (Text.head?_toDigits_ne n hn)
  fraction _ h := by cases h
  exponent _ _ h := by cases h

theorem toWord?_toDigits {n : ℕ} (h : n < wordLimit) :
    toWord? ⟨false, Nat.toDigits 10 n, none, none⟩ = some n := by
  simp [toWord?, Nat.not_le.mpr h]

theorem significand_eq {acc : ℕ} (h : Nat.ofDigitChars 10 digits acc < wordLimit) :
    significand acc digits = (Nat.ofDigitChars 10 digits acc, 0) := by
  induction digits generalizing acc with
  | nil => simp [significand]
  | cons c digits ih =>
      rw [Nat.ofDigitChars_cons, Nat.mul_comm] at h ⊢
      have hstep := Text.le_ofDigitChars digits (acc * 10 + (c.toNat - '0'.toNat))
      exact (if_neg (Nat.not_le.mpr (hstep.trans_lt h))).trans (ih h)

theorem appendFraction_eq {acc : ℕ} (taken : ℕ)
    (h : Nat.ofDigitChars 10 digits acc < wordLimit) :
    appendFraction acc taken digits =
      (Nat.ofDigitChars 10 digits acc, taken + digits.length) := by
  induction digits generalizing acc taken with
  | nil => simp [appendFraction]
  | cons c digits ih =>
      rw [Nat.ofDigitChars_cons, Nat.mul_comm] at h ⊢
      have hstep := Text.le_ofDigitChars digits (acc * 10 + (c.toNat - '0'.toNat))
      have hlength : taken + (c :: digits).length = taken + 1 + digits.length := by
        rw [List.length_cons]
        omega
      rw [hlength]
      exact (if_neg (Nat.not_le.mpr (hstep.trans_lt h))).trans (ih (taken + 1) h)

theorem toBinary64?_fraction {value : ℕ} (zeros : ℕ) (hword : value < wordLimit) :
    toBinary64? ⟨false, ['0'], some (List.replicate zeros '0' ++ Nat.toDigits 10 value), none⟩ =
      scaleByTen? (Binary64.ofNat value) (-(zeros + (Nat.toDigits 10 value).length : ℕ)) := by
  have hvalue : Nat.ofDigitChars 10 (List.replicate zeros '0' ++ Nat.toDigits 10 value) 0 =
      value := by
    rw [Nat.ofDigitChars_append, Nat.ofDigitChars_replicate_zero, mul_zero,
      Nat.ofDigitChars_ten_toDigits]
  have hinteger : significand 0 ['0'] = (0, 0) := by decide
  have hread := @appendFraction_eq _ 0 0 (hvalue ▸ hword)
  rw [hvalue, List.length_append, List.length_replicate] at hread
  simp only [toBinary64?, hinteger, hread]
  simp

theorem toBinary64?_exponent {value places : ℕ} (hword : value < wordLimit)
    (hplaces : places < exponentLimit) :
    toBinary64? ⟨false, (Nat.toDigits 10 value).take 1,
        if (Nat.toDigits 10 value).length = 1 then none else some ((Nat.toDigits 10 value).drop 1),
        some (true, Nat.toDigits 10 places)⟩ =
      scaleByTen? (Binary64.ofNat value)
        (-((Nat.toDigits 10 value).length - 1 + places : ℕ)) := by
  have hvalue : Nat.ofDigitChars 10 (Nat.toDigits 10 value) 0 = value :=
    Nat.ofDigitChars_ten_toDigits
  have hne := (Text.isDigits_toDigits value).ne_nil
  generalize Nat.toDigits 10 value = digits at *
  rcases digits with _ | ⟨c, more⟩
  · exact absurd rfl hne
  have hfirst := Text.le_ofDigitChars more (Nat.ofDigitChars 10 [c] 0)
  rw [← Nat.ofDigitChars_append, List.singleton_append, hvalue] at hfirst
  have hinteger := @significand_eq [c] 0 (hfirst.trans_lt hword)
  rcases more with _ | ⟨d, more⟩
  · simp only [toBinary64?, List.take_succ_cons, List.take_zero, hinteger, hvalue,
      List.length_singleton, if_true, Text.decimalValue_toDigits, if_neg (Nat.not_le.mpr hplaces)]
    simp
  · have hall : Nat.ofDigitChars 10 (d :: more) (Nat.ofDigitChars 10 [c] 0) = value := by
      rw [← Nat.ofDigitChars_append, List.singleton_append, hvalue]
    have hread := appendFraction_eq 0 (hall ▸ hword)
    rw [hall, Nat.zero_add] at hread
    have hmany : ¬(c :: d :: more).length = 1 := by simp
    have hunits : ((0 : ℕ) : ℤ) - ((d :: more).length : ℤ) - (places : ℤ) =
        -((c :: d :: more).length - 1 + places : ℕ) := by
      simp only [List.length_cons]
      omega
    simp only [toBinary64?, List.take_succ_cons, List.take_zero, List.drop_succ_cons,
      List.drop_zero, hinteger, if_neg hmany, hread, Text.decimalValue_toDigits,
      if_neg (Nat.not_le.mpr hplaces), if_true, hunits]
    simp

end digits

section finite

variable {m : ℕ} {e : ℤ}

theorem isProper_ofFinite (negative : Bool) (normal : IsNormal m e) :
    (ofFinite negative m e normal).IsProper := by
  unfold ofFinite
  split
  · refine ⟨Text.isDigits_zero, fun _ => rfl, fun _ h => ?_, fun _ _ h => by cases h⟩
    cases h
    exact Text.isDigits_zero
  rename_i hm
  have hdigits := Text.isDigits_toDigits (shortest m e normal).1
  have hhead := Text.head?_toDigits_ne _ (shortest_ne_zero normal hm)
  simp only
  generalize Nat.toDigits 10 (shortest m e normal).1 = digits at *
  generalize (shortest m e normal).2 = unit at *
  have htake : ∀ {n : ℕ}, 0 < n → Text.IsDigits (digits.take n) ∧
      (digits.take n).head? ≠ some '0' := by
    intro n hn
    refine ⟨⟨?_, fun c hc => hdigits.all c (List.mem_of_mem_take hc)⟩, ?_⟩
    · simp [hdigits.ne_nil, hn.ne']
    · rw [List.head?_take, if_neg hn.ne']
      exact hhead
  have hdrop : ∀ {n : ℕ}, n < digits.length → Text.IsDigits (digits.drop n) := by
    intro n hn
    exact ⟨by simp [hn], fun c hc => hdigits.all c (List.mem_of_mem_drop hc)⟩
  have hzeros : ∀ n : ℕ, ∀ c ∈ List.replicate n '0', Text.isDigit c = true :=
    fun _ _ hc => Text.isDigit_of_mem_zeros hc
  split
  · refine ⟨hdigits.append_right (hzeros _), fun h => absurd h ?_, fun _ h => ?_,
      fun _ _ h => by cases h⟩
    · rw [List.head?_append_of_ne_nil _ hdigits.ne_nil]
      exact hhead
    · cases h
      exact Text.isDigits_zero
  split
  · refine ⟨(htake (by omega)).1, fun h => absurd h (htake (by omega)).2, fun _ h => ?_,
      fun _ _ h => by cases h⟩
    cases h
    exact hdrop (by omega)
  split
  · refine ⟨Text.isDigits_zero, fun _ => rfl, fun _ h => ?_, fun _ _ h => by cases h⟩
    cases h
    refine ⟨by simp [hdigits.ne_nil], fun c hc => ?_⟩
    rcases List.mem_append.mp hc with hc | hc
    · exact hzeros _ c hc
    · exact hdigits.all c hc
  · refine ⟨(htake Nat.one_pos).1, fun h => absurd h (htake Nat.one_pos).2, fun _ h => ?_,
      fun _ _ h => ?_⟩
    · have hlength := List.length_pos_of_ne_nil hdigits.ne_nil
      simp only at h
      split at h
      · cases h
      · cases h
        exact hdrop (by omega)
    · cases h
      exact Text.isDigits_toDigits _

theorem length_toDigits_le {value : ℕ} {unit : ℤ} (hne : value ≠ 0)
    (h : (value : ℚ) * 10 ^ unit < 1) : unit < 0 ∧ (Nat.toDigits 10 value).length + unit ≤ 0 := by
  have hone : (1 : ℚ) ≤ value := by exact_mod_cast Nat.one_le_iff_ne_zero.mpr hne
  have hunit : unit < 0 := by
    by_contra! hnonneg
    have hpower : (1 : ℚ) ≤ 10 ^ unit := one_le_zpow₀ (by norm_num) hnonneg
    exact absurd (one_le_mul_of_one_le_of_one_le hone hpower) (not_le.mpr h)
  refine ⟨hunit, ?_⟩
  obtain ⟨places, rfl⟩ : ∃ places : ℕ, unit = -places := ⟨(-unit).toNat, by omega⟩
  rw [zpow_neg, zpow_natCast, ← div_eq_mul_inv, div_lt_one (by positivity)] at h
  have hlength := (Nat.length_toDigits_le_iff (b := 10) (n := value) (k := places) (by decide)
    (by omega)).mpr (by exact_mod_cast h)
  omega

/-- What is read of a number below one: its digits, divided by a power of ten. -/
theorem toBinary64?_ofFinite {normal : IsNormal m e} (hm : m ≠ 0) (h : m * (2 : ℚ) ^ e < 1) :
    toBinary64? (ofFinite false m e normal) =
      scaleByTen? (Binary64.ofNat (shortest m e normal).1) (shortest m e normal).2 := by
  obtain ⟨-, hle, hfar⟩ := rounded_shortest normal hm
  obtain ⟨hunit, hlength⟩ :=
    length_toDigits_le (shortest_ne_zero normal hm) (@shortest_lt_one m e normal hm h)
  unfold ofFinite
  rw [if_neg hm]
  simp only
  generalize (shortest m e normal).1 = value at *
  generalize (shortest m e normal).2 = unit at *
  have hword : value < wordLimit := hle.trans_lt (by decide)
  have hpos := List.length_pos_of_ne_nil (Text.isDigits_toDigits value).ne_nil
  rw [if_neg (by omega), if_neg (by omega)]
  split
  · rw [toBinary64?_fraction _ hword]
    congr 1
    omega
  · have hsign : decide (((Nat.toDigits 10 value).length : ℤ) + unit < 1) = true :=
      decide_eq_true (by omega)
    have hplaces : (((Nat.toDigits 10 value).length : ℤ) + unit - 1).natAbs < exponentLimit := by
      have hlimit : exponentLimit = 2 ^ 31 := rfl
      omega
    rw [hsign, toBinary64?_exponent hword hplaces]
    congr 1
    omega

end finite

end CertRotation.JsonNumber
