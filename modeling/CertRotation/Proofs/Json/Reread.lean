import CertRotation.Json.Decode
import CertRotation.Proofs.Json.Number

/-!
Numbers written and read again. Reading rounds the quotient of two numbers that may be rounded
already, so that the last digit of a number with many digits may change. A number that fifteen digits
stand for is read back: its digits and the power of ten are exact, and only the quotient is rounded.
-/

namespace CertRotation.Binary64

open JsonNumber

/-- What is read where a number was written. -/
def reread? (x : Binary64) : Option Binary64 := (Json.ofBinary64 x).toBinary64?

/-- The nearest number to a decimal of at most fifteen digits. -/
def IsShort (x : Binary64) : Prop := ∃ digits < 10 ^ 15, ∃ unit, x = ofDecimal false digits unit

section exact

theorem exists_ofNat {n : ℕ} (h : IsRepresentable n) (hsmall : n < 10 ^ 30) :
    ∃ m e normal, ofNat n = finite false m e normal ∧ m * (2 : ℚ) ^ e = n := by
  obtain ⟨m, e, hlt, hleast, hnormal, hvalue, heq⟩ := exists_nearest n one_ne_zero
  have hrounded := rounded_of_isRepresentable (Nat.cast_nonneg n) h
  rw [← rounded_div n one_ne_zero, Nat.cast_one, div_one, hrounded] at hvalue
  have hexponent : e ≤ 971 := by
    by_contra! hbig
    have hlarge := hnormal.resolve_right (by omega)
    have hcast : (2 ^ 52 : ℚ) ≤ m := by exact_mod_cast hlarge
    have hpower : (2 : ℚ) ^ (100 : ℤ) ≤ (2 : ℚ) ^ e := zpow_le_zpow_right₀ one_le_two (by omega)
    have hmul : (2 : ℚ) ^ 52 * (2 : ℚ) ^ (100 : ℤ) ≤ m * (2 : ℚ) ^ e := by gcongr
    have hbound : (n : ℚ) < 10 ^ 30 := by exact_mod_cast hsmall
    have hunits : (10 : ℚ) ^ 30 < 2 ^ 52 * (2 : ℚ) ^ (100 : ℤ) := by norm_num
    linarith
  have normal : IsNormal m e := ⟨hlt, hleast, hexponent, hnormal⟩
  exact ⟨m, e, normal, by rw [ofNat, heq, dif_pos normal], hvalue⟩

theorem isRepresentable_pow_ten {places : ℕ} (h : places ≤ 22) :
    IsRepresentable ((10 ^ places : ℕ) : ℚ) := by
  refine ⟨5 ^ places, places, ?_, by omega, ?_⟩
  · calc 5 ^ places ≤ 5 ^ 22 := Nat.pow_le_pow_right (by decide) h
      _ < 2 ^ 53 := by decide
  · rw [zpow_natCast]
    push_cast
    rw [← mul_pow]
    norm_num

theorem div_eq_finite {m m' k : ℕ} {e e' d : ℤ} {normal : IsNormal m e} {normal' : IsNormal m' e'}
    (result : IsNormal k d) (hne : m' ≠ 0)
    (h : rounded (m * (2 : ℚ) ^ e / (m' * (2 : ℚ) ^ e')) = k * (2 : ℚ) ^ d) :
    (finite false m e normal).div (finite false m' e' normal') = finite false k d result := by
  have hden : denominator e * numerator m' e' ≠ 0 :=
    (Nat.mul_pos (pow2_pos _) (Nat.mul_pos (Nat.pos_of_ne_zero hne) (pow2_pos _))).ne'
  have hquotient : ((numerator m e * denominator e' : ℕ) : ℚ) /
      (denominator e * numerator m' e' : ℕ) = m * (2 : ℚ) ^ e / (m' * (2 : ℚ) ^ e') := by
    rw [← numerator_div_denominator, ← numerator_div_denominator, Nat.cast_mul, Nat.cast_mul,
      div_div_div_eq]
  rw [div, if_neg hne]
  refine (ofRatio_eq_finite_iff hden).mpr ?_
  rw [hquotient, h]

end exact

section factors

variable {x : Binary64}

theorem exists_eq_finite (hfinite : x.isFinite = true) (hpos : 0 < x.value) :
    ∃ m e normal, x = finite false m e normal ∧ m ≠ 0 ∧ x.value = m * (2 : ℚ) ^ e := by
  cases x with
  | nan => cases hfinite
  | infinite => cases hfinite
  | finite negative m e normal =>
      have hnonneg : (0 : ℚ) ≤ m * (2 : ℚ) ^ e := by positivity
      cases negative with
      | true =>
          simp only [value, if_true] at hpos
          linarith
      | false =>
          refine ⟨m, e, normal, rfl, ?_, by simp [value]⟩
          rintro rfl
          simp [value] at hpos

theorem exists_scaleByTen?_of_neg (x : Binary64) {exponent : ℤ} (h : exponent < 0) :
    ∃ y, scaleByTen? x exponent = some y := by
  fun_induction scaleByTen? x exponent with
  | case1 => omega
  | case2 => omega
  | case3 => exact ⟨_, rfl⟩
  | case4 => exact ⟨_, rfl⟩
  | case5 => omega
  | case6 x exponent hfar _ _ ih =>
      refine ih ?_
      simp only [scaleStep] at *
      omega

/-- What is read of a number between zero and one: the digits stand for the number, but it is their
rounded value that is divided by the rounded power of ten. -/
theorem exists_reread?_eq (hfinite : x.isFinite = true) (hpos : 0 < x.value) (hlt : x.value < 1) :
    ∃ digits unit y, ofDecimal false digits unit = x ∧
      scaleByTen? (ofNat digits) unit = some y ∧ x.reread? = some y := by
  obtain ⟨m, e, normal, rfl, hm, hvalue⟩ := exists_eq_finite hfinite hpos
  rw [hvalue] at hlt
  have hreads := (rounded_shortest normal hm).1
  have hunit := (length_toDigits_le (shortest_ne_zero normal hm) (shortest_lt_one hm hlt)).1
  obtain ⟨y, hy⟩ := exists_scaleByTen?_of_neg (ofNat (shortest m e normal).1) hunit
  refine ⟨_, _, y, ofDecimal_eq_finite_iff.mpr hreads, hy, ?_⟩
  rw [← hy, ← toBinary64?_ofFinite hm hlt]
  rfl

theorem scaleByTen?_eq_self {digits places m : ℕ} {e : ℤ} {normal : IsNormal m e}
    (hdigits : digits < 2 ^ 53) (hplaces : 0 < places) (hplaces' : places ≤ 22)
    (h : ofDecimal false digits (-places) = finite false m e normal) :
    scaleByTen? (ofNat digits) (-places) = some (finite false m e normal) := by
  obtain ⟨k, d, hk, hdigitsEq, hdigitsValue⟩ :=
    exists_ofNat (isRepresentable_natCast hdigits) (hdigits.trans (by decide))
  obtain ⟨k', d', hk', hpowerEq, hpowerValue⟩ :=
    exists_ofNat (isRepresentable_pow_ten hplaces') (by
      calc 10 ^ places ≤ 10 ^ 22 := Nat.pow_le_pow_right (by decide) hplaces'
        _ < 10 ^ 30 := by decide)
  have hne : k' ≠ 0 := by
    rintro rfl
    rw [Nat.cast_zero, zero_mul] at hpowerValue
    exact absurd hpowerValue.symm (by positivity)
  have hquotient : (digits : ℚ) * 10 ^ (-(places : ℤ)) =
      k * (2 : ℚ) ^ d / (k' * (2 : ℚ) ^ d') := by
    rw [hdigitsValue, hpowerValue, zpow_neg, zpow_natCast, div_eq_mul_inv]
    push_cast
    rfl
  have hrounded := ofDecimal_eq_finite_iff.mp h
  rw [hquotient] at hrounded
  have hstep : (-(places : ℤ)).natAbs ≤ scaleStep := by
    rw [Int.natAbs_neg, Int.natAbs_natCast]
    exact hplaces'.trans (by decide)
  rw [scaleByTen?, if_pos hstep, if_neg (by omega), Int.natAbs_neg, Int.natAbs_natCast, hdigitsEq,
    powerOfTen, show ofNat (Nat.pow 10 places) = finite false k' d' hk' from hpowerEq,
    div_eq_finite normal hne hrounded]

theorem exists_fifteen_digits {m digits : ℕ} {e unit : ℤ} (normal : IsNormal m e) (hm : m ≠ 0)
    (hdigits : digits < 10 ^ 15) (h : rounded (digits * (10 : ℚ) ^ unit) = m * (2 : ℚ) ^ e) :
    ∃ n : ℕ, rounded (n * (10 : ℚ) ^ (leading m e - (15 : ℕ) + 1)) = m * (2 : ℚ) ^ e := by
  have hsplit : ∀ (places : ℕ) (unit : ℤ),
      ((10 ^ places : ℕ) : ℚ) * 10 ^ unit = 10 ^ (places + unit) := by
    intro places unit
    rw [zpow_add₀ (by norm_num), zpow_natCast]
    push_cast
    rfl
  rcases le_or_gt (leading m e - (15 : ℕ) + 1) unit with hle | hgt
  · obtain ⟨places, hplaces⟩ := Int.le.dest hle
    refine ⟨digits * 10 ^ places, ?_⟩
    rw [Nat.cast_mul, mul_assoc, hsplit, add_comm, hplaces, h]
  · obtain ⟨-, hlow, -⟩ := leading_bounds normal hm
    refine ⟨10 ^ 14, rounded_eq_of_between h (rounded_finite normal) (by positivity) ?_ ?_⟩
    · rw [hsplit]
      calc (digits : ℚ) * 10 ^ unit ≤ (10 ^ 15 : ℕ) * 10 ^ unit := by gcongr
        _ = 10 ^ (15 + unit) := hsplit 15 unit
        _ ≤ 10 ^ (((14 : ℕ) : ℤ) + (leading m e - (15 : ℕ) + 1)) := by
          refine zpow_le_zpow_right₀ (by norm_num) ?_
          omega
    · rw [hsplit]
      refine le_of_eq_of_le ?_ hlow
      congr 1
      omega

/-- A number that fifteen digits stand for is read back. -/
theorem reread?_eq_self (hshort : x.IsShort) (hlow : (10 : ℚ) ^ (-8 : ℤ) ≤ x.value)
    (hfinite : x.isFinite = true) (hlt : x.value < 1) : x.reread? = some x := by
  have hpos : 0 < x.value := (zpow_ten_pos (-8)).trans_le hlow
  obtain ⟨m, e, normal, rfl, hm, hvalue⟩ := exists_eq_finite hfinite hpos
  rw [hvalue] at hlow hlt
  obtain ⟨digits, hdigits, unit, hdecimal⟩ := hshort
  obtain ⟨n, hn⟩ :=
    exists_fifteen_digits normal hm hdigits (ofDecimal_eq_finite_iff.mp hdecimal.symm)
  obtain ⟨hreads, hle, hfirst⟩ := shortest_spec normal hm (by decide) (by decide) hn
  obtain ⟨hunit, -⟩ := length_toDigits_le (shortest_ne_zero normal hm) (shortest_lt_one hm hlt)
  have hleading : -8 ≤ leading m e := by
    have hpower := hlow.trans_lt (leading_bounds normal hm).2.2
    have hexponent := (zpow_lt_zpow_iff_right₀ (by norm_num)).mp hpower
    omega
  have hreread : (finite false m e normal).reread? = toBinary64? (ofFinite false m e normal) := rfl
  rw [hreread, toBinary64?_ofFinite hm hlt]
  generalize (shortest m e normal).1 = found at *
  generalize (shortest m e normal).2 = foundUnit at *
  obtain ⟨places, rfl⟩ : ∃ places : ℕ, foundUnit = -places := ⟨(-foundUnit).toNat, by omega⟩
  exact scaleByTen?_eq_self (hle.trans_lt (by decide)) (by omega) (by omega)
    (ofDecimal_eq_finite_iff.mpr hreads)

/-- Sixteen digits can be too many: the greatest number below one is read as one. -/
example : (ofDecimal false 9999999999999999 (-16)).reread? = some one := by decide +kernel

end factors

end CertRotation.Binary64
