import CertRotation.Proofs.Binary64.Rounding

namespace CertRotation.Binary64

section Quotient

variable {num den num' den' : ℕ}

theorem half_mono {rest rest' : ℕ} (hden : 0 < den) (hden' : 0 < den')
    (h : rest * den' ≤ rest' * den) :
    (den ≤ 2 * rest → den' ≤ 2 * rest') ∧ (den < 2 * rest → den' < 2 * rest') := by
  have hdouble : 2 * rest * den' ≤ 2 * rest' * den := by
    rw [Nat.mul_assoc, Nat.mul_assoc]
    exact Nat.mul_le_mul_left 2 h
  constructor
  · intro hhalf
    refine Nat.le_of_mul_le_mul_right ?_ hden
    calc den' * den = den * den' := Nat.mul_comm _ _
      _ ≤ 2 * rest * den' := Nat.mul_le_mul_right _ hhalf
      _ ≤ 2 * rest' * den := hdouble
  · intro hhalf
    refine Nat.lt_of_mul_lt_mul_right (a := den) ?_
    calc den' * den = den * den' := Nat.mul_comm _ _
      _ < 2 * rest * den' := Nat.mul_lt_mul_of_pos_right hhalf hden'
      _ ≤ 2 * rest' * den := hdouble

theorem roundHalfEven_mono (hden : 0 < den) (hden' : 0 < den') (h : num * den' ≤ num' * den) :
    roundHalfEven num den ≤ roundHalfEven num' den' := by
  have hsplit : den * (num / den) + num % den = num := Nat.div_add_mod num den
  have hsplit' : den' * (num' / den') + num' % den' = num' := Nat.div_add_mod num' den'
  have hle : num / den ≤ num' / den' := by
    rw [Nat.le_div_iff_mul_le hden']
    refine Nat.le_of_mul_le_mul_right ?_ hden
    calc num / den * den' * den = den * (num / den) * den' := by ring
      _ ≤ num * den' := Nat.mul_le_mul_right _ (by omega)
      _ ≤ num' * den := h
  rcases Nat.lt_or_eq_of_le hle with hlt | heq
  · -- a carry does not reach beyond the next integer
    unfold roundHalfEven
    simp only
    split
    · split
      · omega
      · omega
    · split
      · omega
      · omega
  · -- the remainders are ordered as the quotients
    have hrest : num % den * den' ≤ num' % den' * den := by
      refine Nat.le_of_add_le_add_left (a := num / den * (den * den')) ?_
      calc num / den * (den * den') + num % den * den'
          = (den * (num / den) + num % den) * den' := by ring
        _ ≤ num' * den := by rw [hsplit]; exact h
        _ = (den' * (num' / den') + num' % den') * den := by rw [hsplit']
        _ = num / den * (den * den') + num' % den' * den := by rw [heq]; ring
    obtain ⟨hge, hgt⟩ := half_mono hden hden' hrest
    have hup : 2 * (num % den) > den ∨ (2 * (num % den) = den ∧ num / den % 2 = 1) →
        2 * (num' % den') > den' ∨ (2 * (num' % den') = den' ∧ num' / den' % 2 = 1) := by
      rintro (hhalf | ⟨hhalf, hodd⟩)
      · exact .inl (hgt hhalf)
      · rcases Nat.lt_or_eq_of_le (hge hhalf.ge) with hhalf' | hhalf'
        · exact .inl hhalf'
        · exact .inr ⟨hhalf'.symm, heq ▸ hodd⟩
    unfold roundHalfEven
    simp only
    split
    · rename_i hfirst
      rw [if_pos (hup hfirst)]
      omega
    · split
      · omega
      · omega

theorem nearest_nonneg (num den : ℕ) : 0 ≤ nearest num den := by
  rw [nearest]
  positivity

theorem nearest_mono (hden : den ≠ 0) (hden' : den' ≠ 0)
    (h : (num / den : ℚ) ≤ num' / den') : nearest num den ≤ nearest num' den' := by
  by_cases hnum : num = 0
  · rw [hnum, nearest_zero hden]
    exact nearest_nonneg num' den'
  have hcast : (0 : ℚ) < den := Nat.cast_pos.mpr (Nat.pos_of_ne_zero hden)
  have hcast' : (0 : ℚ) < den' := Nat.cast_pos.mpr (Nat.pos_of_ne_zero hden')
  have hpos : (0 : ℚ) < num / den := div_pos (Nat.cast_pos.mpr (Nat.pos_of_ne_zero hnum)) hcast
  have hnum' : num' ≠ 0 := by
    rintro rfl
    rw [Nat.cast_zero, zero_div] at h
    exact absurd hpos (not_lt.mpr h)
  obtain ⟨hleast, hsmall, hlarge⟩ := exponentOf_bounds hnum hden
  obtain ⟨hleast', hsmall', hlarge'⟩ := exponentOf_bounds hnum' hden'
  rcases lt_trichotomy (exponentOf num den) (exponentOf num' den') with hlt | heq | hgt
  · -- a power of two that can be represented lies between the two
    have hnormal := hlarge'.resolve_left (by omega)
    have hstep := top_le_bottom hlt
    have hbound : IsRepresentable (2 ^ 52 * (2 : ℚ) ^ exponentOf num' den') :=
      ⟨2 ^ 52, _, by decide, hleast', by push_cast; rfl⟩
    exact ((nearest_between hden hbound).2 (hsmall.le.trans hstep)).trans
      ((nearest_between hden' hbound).1 hnormal)
  · have hround : roundHalfEven (num * pow2 (-exponentOf num den)) (den * pow2 (exponentOf num den))
        ≤ roundHalfEven (num' * pow2 (-exponentOf num' den'))
          (den' * pow2 (exponentOf num' den')) := by
      rw [← heq]
      refine roundHalfEven_mono (Nat.mul_pos (Nat.pos_of_ne_zero hden) (pow2_pos _))
        (Nat.mul_pos (Nat.pos_of_ne_zero hden') (pow2_pos _)) ?_
      have hcross : num * den' ≤ num' * den := by
        rw [div_le_div_iff₀ hcast hcast'] at h
        exact_mod_cast h
      calc num * pow2 (-exponentOf num den) * (den' * pow2 (exponentOf num den))
          = num * den' * (pow2 (-exponentOf num den) * pow2 (exponentOf num den)) := by ring
        _ ≤ num' * den * (pow2 (-exponentOf num den) * pow2 (exponentOf num den)) :=
            Nat.mul_le_mul_right _ hcross
        _ = num' * pow2 (-exponentOf num den) * (den * pow2 (exponentOf num den)) := by ring
    rw [nearest, nearest, ← heq]
    rw [← heq] at hround
    have hround' := Nat.cast_le (α := ℚ).mpr hround
    gcongr
  · have hnormal := hlarge.resolve_left (by omega)
    have hstep := top_le_bottom hgt
    exact absurd (hsmall'.trans_le (hstep.trans (hnormal.trans h))) (lt_irrefl _)

theorem eq_of_normal {m m' : ℕ} {e e' : ℤ} (hlt : m < 2 ^ 53) (hlt' : m' < 2 ^ 53)
    (hleast : -1074 ≤ e) (hleast' : -1074 ≤ e') (hnormal : 2 ^ 52 ≤ m ∨ e = -1074)
    (hnormal' : 2 ^ 52 ≤ m' ∨ e' = -1074) (h : m * (2 : ℚ) ^ e = m' * (2 : ℚ) ^ e') :
    m = m' ∧ e = e' := by
  have hexponent : ∀ {m m' : ℕ} {e e' : ℤ}, m < 2 ^ 53 → -1074 ≤ e →
      (2 ^ 52 ≤ m' ∨ e' = -1074) → m * (2 : ℚ) ^ e = m' * (2 : ℚ) ^ e' → e' ≤ e := by
    intro m m' e e' hlt hleast hnormal' h
    by_contra! hgt
    have hcast : (2 ^ 52 : ℚ) ≤ m' := by exact_mod_cast hnormal'.resolve_right (by omega)
    have hcast' : (m : ℚ) < 2 ^ 53 := by exact_mod_cast hlt
    have hbelow : (m : ℚ) * (2 : ℚ) ^ e < 2 ^ 53 * (2 : ℚ) ^ e := by gcongr
    have habove : (2 : ℚ) ^ 52 * (2 : ℚ) ^ e' ≤ m' * (2 : ℚ) ^ e' := by gcongr
    exact absurd (hbelow.trans_le ((top_le_bottom hgt).trans habove)) (by rw [h]; exact lt_irrefl _)
  have heq : e = e' :=
    le_antisymm (hexponent hlt' hleast' hnormal h.symm) (hexponent hlt hleast hnormal' h)
  subst heq
  have hcast : (m : ℚ) = m' := mul_right_cancel₀ (zpow_pos two_pos e).ne' h
  exact ⟨by exact_mod_cast hcast, rfl⟩

end Quotient

/-- A magnitude rounded to the nearest number, however large. -/
def rounded (r : ℚ) : ℚ := nearest r.num.toNat r.den

theorem num_div_den {r : ℚ} (h : 0 ≤ r) : (r.num.toNat : ℚ) / r.den = r := by
  have hnum : ((r.num.toNat : ℕ) : ℤ) = r.num := Int.toNat_of_nonneg (Rat.num_nonneg.mpr h)
  have hcast : (r.num.toNat : ℚ) = r.num := by exact_mod_cast hnum
  rw [hcast, Rat.num_div_den]

section Rounded

variable {r s : ℚ}

theorem rounded_div (num : ℕ) {den : ℕ} (hden : den ≠ 0) :
    rounded (num / den) = nearest num den := by
  have hself : (((num / den : ℚ).num.toNat : ℕ) : ℚ) / (num / den : ℚ).den = num / den :=
    num_div_den (by positivity)
  have hden' : (num / den : ℚ).den ≠ 0 := Rat.den_nz _
  exact le_antisymm (nearest_mono hden' hden hself.le) (nearest_mono hden hden' hself.ge)

theorem rounded_mono (hr : 0 ≤ r) (h : r ≤ s) : rounded r ≤ rounded s := by
  refine nearest_mono (Rat.den_nz r) (Rat.den_nz s) ?_
  rw [num_div_den hr, num_div_den (hr.trans h)]
  exact h

theorem rounded_of_isRepresentable (hr : 0 ≤ r) (h : IsRepresentable r) : rounded r = r := by
  obtain ⟨habove, hbelow⟩ := @nearest_between r.num.toNat r.den (Rat.den_nz r) r h
  rw [num_div_den hr] at habove hbelow
  exact le_antisymm (hbelow le_rfl) (habove le_rfl)

theorem rounded_eq_of_between {low high x : ℚ} (hlow : rounded low = x) (hhigh : rounded high = x)
    (hnonneg : 0 ≤ low) (hle : low ≤ r) (hge : r ≤ high) : rounded r = x := by
  refine le_antisymm ?_ ?_
  · rw [← hhigh]
    exact rounded_mono (hnonneg.trans hle) hge
  · rw [← hlow]
    exact rounded_mono hnonneg hle

theorem ofRatio_eq_finite_iff {num den : ℕ} {negative : Bool} {m : ℕ} {e : ℤ}
    {normal : IsNormal m e} (hden : den ≠ 0) :
    ofRatio negative num den = finite negative m e normal ↔
      rounded (num / den) = m * (2 : ℚ) ^ e := by
  obtain ⟨m', e', hlt', hleast', hnormal', hvalue, heq⟩ := exists_nearest num hden
  rw [heq, rounded_div num hden, ← hvalue]
  constructor
  · intro h
    split at h
    · cases h
      rfl
    · cases h
  · intro h
    obtain ⟨rfl, rfl⟩ := eq_of_normal hlt' normal.1 hleast' normal.2.1 hnormal' normal.2.2.2 h
    rw [dif_pos normal]

theorem exponentOf_eq {num den : ℕ} {e : ℤ} (hnum : num ≠ 0) (hden : den ≠ 0) (hleast : -1074 ≤ e)
    (hsmall : (num / den : ℚ) < 2 ^ 53 * (2 : ℚ) ^ e)
    (hlarge : e = -1074 ∨ 2 ^ 52 * (2 : ℚ) ^ e ≤ num / den) : exponentOf num den = e := by
  obtain ⟨hleast', hsmall', hlarge'⟩ := exponentOf_bounds hnum hden
  rcases lt_trichotomy (exponentOf num den) e with hlt | heq | hgt
  · have hnormal := hlarge.resolve_left (by omega)
    exact absurd (hsmall'.trans_le ((top_le_bottom hlt).trans hnormal)) (lt_irrefl _)
  · exact heq
  · have hnormal := hlarge'.resolve_left (by omega)
    exact absurd (hsmall.trans_le ((top_le_bottom hgt).trans hnormal)) (lt_irrefl _)

theorem roundHalfEven_eq {num den k : ℕ} (hlow : 2 * (k * den) < 2 * num + den)
    (hhigh : 2 * num < 2 * (k * den) + den) : roundHalfEven num den = k := by
  have hden : 0 < den := by omega
  have hsplit : den * (num / den) + num % den = num := Nat.div_add_mod num den
  have hrest : num % den < den := Nat.mod_lt num hden
  rcases le_or_gt (k * den) num with hle | hlt
  · have hquotient : num / den = k := by
      refine Nat.div_eq_of_lt_le hle ?_
      rw [Nat.succ_mul]
      omega
    rw [hquotient, Nat.mul_comm] at hsplit
    unfold roundHalfEven
    simp only [hquotient]
    rw [if_neg (by omega)]
  · obtain ⟨k, rfl⟩ := Nat.exists_eq_succ_of_ne_zero (n := k) (by rintro rfl; simp at hlt)
    rw [Nat.succ_mul k den] at hlow hhigh hlt
    have hquotient : num / den = k := by
      refine Nat.div_eq_of_lt_le (by omega) ?_
      rw [Nat.succ_mul]
      exact hlt
    rw [hquotient, Nat.mul_comm] at hsplit
    unfold roundHalfEven
    simp only [hquotient]
    rw [if_pos (.inl (by omega))]

/-- What lies within half a unit of a number is rounded to it. -/
theorem rounded_eq_of_near {k : ℕ} {e : ℤ} (hpos : 0 < r) (hleast : -1074 ≤ e)
    (hsmall : r < 2 ^ 53 * (2 : ℚ) ^ e) (hlarge : e = -1074 ∨ 2 ^ 52 * (2 : ℚ) ^ e ≤ r)
    (hlow : k * (2 : ℚ) ^ e < r + (2 : ℚ) ^ e / 2) (hhigh : r < k * (2 : ℚ) ^ e + (2 : ℚ) ^ e / 2) :
    rounded r = k * (2 : ℚ) ^ e := by
  have hself := num_div_den hpos.le
  have hden : r.den ≠ 0 := Rat.den_nz r
  have hnum : r.num.toNat ≠ 0 := by
    intro hzero
    rw [hzero, Nat.cast_zero, zero_div] at hself
    exact absurd hself hpos.ne
  rw [rounded]
  generalize r.num.toNat = num at *
  generalize r.den = den at *
  subst hself
  have hexponent := exponentOf_eq hnum hden hleast hsmall hlarge
  have hunit : (0 : ℚ) < (2 : ℚ) ^ e := zpow_pos two_pos e
  have hscaled : (0 : ℚ) < ((den * pow2 e : ℕ) : ℚ) :=
    Nat.cast_pos.mpr (Nat.mul_pos (Nat.pos_of_ne_zero hden) (pow2_pos e))
  have hquotient : (num / den : ℚ) =
      ((num * pow2 (-e) : ℕ) : ℚ) / (den * pow2 e : ℕ) * (2 : ℚ) ^ e := by
    rw [quotient_eq, div_mul_cancel₀ _ hunit.ne']
  rw [hquotient] at hlow hhigh
  rw [nearest, hexponent]
  generalize num * pow2 (-e) = a at *
  generalize den * pow2 e = b at *
  congr 2
  refine roundHalfEven_eq ?_ ?_
  · have hcompare : (k : ℚ) < a / b + 1 / 2 := by
      refine lt_of_mul_lt_mul_right ?_ hunit.le
      linarith
    rw [← sub_lt_iff_lt_add, lt_div_iff₀ hscaled] at hcompare
    have hcast : (2 * (k * b) : ℚ) < 2 * a + b := by linarith
    exact_mod_cast hcast
  · have hcompare : (a / b : ℚ) < k + 1 / 2 := by
      refine lt_of_mul_lt_mul_right ?_ hunit.le
      linarith
    rw [div_lt_iff₀ hscaled] at hcompare
    have hcast : (2 * a : ℚ) < 2 * (k * b) + b := by linarith
    exact_mod_cast hcast

end Rounded

end CertRotation.Binary64
