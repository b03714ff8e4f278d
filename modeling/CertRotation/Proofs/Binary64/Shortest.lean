import CertRotation.Binary64.Text
import CertRotation.Proofs.Binary64.Nearest

/-!
The shortest digits of a number. Seventeen digits are always enough for a decimal that is rounded
back to the number, and the search takes no more digits than some such decimal has.
-/

namespace CertRotation.Binary64

section Decimal

theorem zpow_ten_pos (unit : ℤ) : (0 : ℚ) < (10 : ℚ) ^ unit := zpow_pos (by norm_num) unit

theorem pow10_div_pow10_neg (unit : ℤ) :
    ((Nat.pow 10 unit.toNat : ℕ) : ℚ) / (Nat.pow 10 (-unit).toNat : ℕ) = (10 : ℚ) ^ unit := by
  have hsplit : unit = (unit.toNat : ℤ) - ((-unit).toNat : ℤ) := by omega
  have hpow : ∀ n : ℕ, ((Nat.pow 10 n : ℕ) : ℚ) = (10 : ℚ) ^ (n : ℤ) := by
    intro n
    rw [zpow_natCast]
    exact Nat.cast_pow 10 n
  rw [hpow, hpow]
  conv_rhs => rw [hsplit, zpow_sub₀ (by norm_num)]

theorem ofDecimal_eq_finite_iff {negative : Bool} {digits m : ℕ} {unit e : ℤ}
    {normal : IsNormal m e} :
    ofDecimal negative digits unit = finite negative m e normal ↔
      rounded (digits * (10 : ℚ) ^ unit) = m * (2 : ℚ) ^ e := by
  have hden : Nat.pow 10 (-unit).toNat ≠ 0 := (Nat.pow_pos (by decide)).ne'
  rw [ofDecimal, ofRatio_eq_finite_iff hden, Nat.cast_mul, mul_div_assoc, pow10_div_pow10_neg]

end Decimal

section Neighbours

variable {num den : ℕ} {unit : ℤ}

theorem exists_below (hden : den ≠ 0) (unit : ℤ) :
    ∃ below : ℕ, below * (10 : ℚ) ^ unit ≤ num / den ∧ (num / den : ℚ) < (below + 1) * 10 ^ unit ∧
      below ∈ neighbours num den unit ∧
      ((num / den : ℚ) ≠ below * 10 ^ unit → below + 1 ∈ neighbours num den unit) ∧
      ∀ n ∈ neighbours num den unit, n ≤ below + 1 := by
  have hunits : ((num * Nat.pow 10 (-unit).toNat : ℕ) : ℚ) / (den * Nat.pow 10 unit.toNat : ℕ) =
      num / den / 10 ^ unit := by
    rw [← pow10_div_pow10_neg, Nat.cast_mul, Nat.cast_mul]
    have hup : (0 : ℚ) < (Nat.pow 10 unit.toNat : ℕ) := Nat.cast_pos.mpr (Nat.pow_pos (by decide))
    have hdown : (0 : ℚ) < (Nat.pow 10 (-unit).toNat : ℕ) :=
      Nat.cast_pos.mpr (Nat.pow_pos (by decide))
    field_simp
  have hpos : 0 < den * Nat.pow 10 unit.toNat :=
    Nat.mul_pos (Nat.pos_of_ne_zero hden) (Nat.pow_pos (by decide))
  rw [neighbours]
  generalize num * Nat.pow 10 (-unit).toNat = n at *
  generalize den * Nat.pow 10 unit.toNat = d at *
  have hcast : (0 : ℚ) < d := Nat.cast_pos.mpr hpos
  have hsplit : d * (n / d) + n % d = n := Nat.div_add_mod n d
  refine ⟨n / d, ?_, ?_, ?_⟩
  · rw [← le_div_iff₀ (zpow_ten_pos unit), ← hunits, le_div_iff₀ hcast]
    exact_mod_cast Nat.div_mul_le_self n d
  · rw [← div_lt_iff₀ (zpow_ten_pos unit), ← hunits, div_lt_iff₀ hcast]
    rw [mul_comm]
    exact_mod_cast Nat.lt_mul_div_succ n hpos
  · split
    · rename_i hexact
      refine ⟨List.mem_singleton_self _, fun hne => absurd ?_ hne, ?_⟩
      · rw [← div_eq_iff (zpow_ten_pos unit).ne', ← hunits, div_eq_iff hcast.ne']
        rw [hexact, Nat.add_zero, Nat.mul_comm] at hsplit
        exact_mod_cast hsplit.symm
      · intro k hk
        rw [List.mem_singleton.mp hk]
        exact Nat.le_succ _
    · split
      · exact ⟨by simp, by simp, by simp⟩
      · exact ⟨by simp, by simp, by simp⟩

theorem exists_mem_neighbours (hden : den ≠ 0) {x : ℚ} (hx : rounded (num / den) = x) {k : ℕ}
    (h : rounded (k * (10 : ℚ) ^ unit) = x) :
    ∃ n ∈ neighbours num den unit, rounded (n * (10 : ℚ) ^ unit) = x := by
  obtain ⟨below, hle, hlt, hmem, hnext, -⟩ := @exists_below num den hden unit
  have hunit := zpow_ten_pos unit
  rcases le_or_gt ((k : ℚ) * 10 ^ unit) (num / den) with hk | hk
  · have hkbelow : k < below + 1 := by
      have hcast := lt_of_mul_lt_mul_right (hk.trans_lt hlt) hunit.le
      exact_mod_cast hcast
    have hcast : (k : ℚ) ≤ below := Nat.cast_le.mpr (Nat.le_of_lt_succ hkbelow)
    refine ⟨below, hmem, rounded_eq_of_between h hx (by positivity) ?_ hle⟩
    gcongr
  · by_cases hexact : (num / den : ℚ) = below * 10 ^ unit
    · exact ⟨below, hmem, by rw [← hexact, hx]⟩
    · have hbelowk : below < k := by
        have hcast := lt_of_mul_lt_mul_right (hle.trans_lt hk) hunit.le
        exact_mod_cast hcast
      have hcast : ((below + 1 : ℕ) : ℚ) ≤ k := Nat.cast_le.mpr hbelowk
      refine ⟨below + 1, hnext hexact, rounded_eq_of_between hx h (by positivity) ?_ ?_⟩
      · push_cast
        exact hlt.le
      · gcongr

theorem exists_near_neighbour (hden : den ≠ 0) (unit : ℤ) :
    ∃ n : ℕ, (num / den : ℚ) ≤ n * 10 ^ unit + 10 ^ unit / 2 ∧
      n * (10 : ℚ) ^ unit ≤ num / den + 10 ^ unit / 2 := by
  obtain ⟨below, hle, hlt, -, -, -⟩ := @exists_below num den hden unit
  have hunit := zpow_ten_pos unit
  rcases le_or_gt (num / den : ℚ) (below * 10 ^ unit + 10 ^ unit / 2) with hhalf | hhalf
  · exact ⟨below, hhalf, by linarith⟩
  · refine ⟨below + 1, ?_, ?_⟩
    · push_cast
      linarith
    · push_cast
      linarith

end Neighbours

section Search

variable {num den : ℕ}

theorem leadingPower_of_le (hden : 0 < den) (hle : den ≤ num) :
    0 ≤ leadingPower num den ∧ (10 : ℚ) ^ leadingPower num den ≤ num / den ∧
      (num / den : ℚ) < 10 ^ (leadingPower num den + 1) := by
  have hcast : (0 : ℚ) < den := Nat.cast_pos.mpr hden
  have hquotient : 0 < num / den := Nat.div_pos hle hden
  have hlength := @Nat.length_toDigits_pos 10 (num / den)
  rw [leadingPower, if_pos hle]
  generalize hdigits : (Nat.toDigits 10 (num / den)).length = length at *
  have hupper : num / den < 10 ^ length :=
    (Nat.length_toDigits_le_iff (by decide) hlength).mp hdigits.le
  have hlower : 10 ^ (length - 1) ≤ num / den := by
    rcases Nat.eq_zero_or_pos (length - 1) with hzero | hpos
    · rw [hzero]
      exact hquotient
    · refine Nat.not_lt.mp fun hlt => ?_
      have hshort := (Nat.length_toDigits_le_iff (by decide) hpos).mpr hlt
      omega
  have hexponent : ((length : ℤ) - 1) = ((length - 1 : ℕ) : ℤ) := by omega
  refine ⟨by omega, ?_, ?_⟩
  · rw [hexponent, zpow_natCast, le_div_iff₀ hcast]
    have hmul : 10 ^ (length - 1) * den ≤ num := (Nat.le_div_iff_mul_le hden).mp hlower
    exact_mod_cast hmul
  · rw [sub_add_cancel, zpow_natCast, div_lt_iff₀ hcast]
    have hmul : num < 10 ^ length * den := (Nat.div_lt_iff_lt_mul hden).mp hupper
    exact_mod_cast hmul

theorem leadingPower_of_lt {j : ℕ} (hlt : num < den) (hj : j < 400) (hsmall : den ≤ num * 10 ^ j) :
    -400 < leadingPower num den ∧ (10 : ℚ) ^ leadingPower num den ≤ num / den ∧
      (num / den : ℚ) < 10 ^ (leadingPower num den + 1) := by
  have hcast : (0 : ℚ) < den := Nat.cast_pos.mpr (Nat.zero_lt_of_lt hlt)
  obtain ⟨first, hfind⟩ :
      ∃ first, (List.range 400).find? (fun j => num * Nat.pow 10 j ≥ den) = some first := by
    rw [← Option.isSome_iff_exists, List.find?_isSome]
    exact ⟨j, List.mem_range.mpr hj, decide_eq_true hsmall⟩
  obtain ⟨hfirst, hrange, hbefore⟩ := List.find?_range_eq_some.mp hfind
  have hfound : den ≤ num * 10 ^ first := of_decide_eq_true hfirst
  rw [leadingPower, if_neg (Nat.not_le.mpr hlt), hfind, Option.getD_some]
  obtain ⟨i, rfl⟩ : ∃ i, first = i + 1 := by
    refine Nat.exists_eq_succ_of_ne_zero ?_
    rintro rfl
    rw [pow_zero, mul_one] at hfound
    exact Nat.not_le.mpr hlt hfound
  have hmissed : num * 10 ^ i < den := by
    have hnot := hbefore i (Nat.lt_succ_self i)
    simpa using hnot
  refine ⟨by have hfar := List.mem_range.mp hrange; omega, ?_, ?_⟩
  · rw [zpow_neg, zpow_natCast, le_div_iff₀ hcast, inv_mul_le_iff₀ (by positivity), mul_comm]
    exact_mod_cast hfound
  · have hexponent : -((i + 1 : ℕ) : ℤ) + 1 = -(i : ℤ) := by omega
    rw [hexponent, zpow_neg, zpow_natCast, div_lt_iff₀ hcast, lt_inv_mul_iff₀ (by positivity),
      mul_comm]
    exact_mod_cast hmissed

theorem shortestFrom_spec {leading : ℤ} {target : Binary64} {tries digits k : ℕ}
    (hle : digits ≤ k) (hlt : k < digits + tries)
    (h : ∃ n ∈ neighbours num den (leading - k + 1), ofDecimal false n (leading - k + 1) = target) :
    ∃ j ≤ k, ∃ n ∈ neighbours num den (leading - j + 1),
      ofDecimal false n (leading - j + 1) = target ∧
      shortestFrom num den leading target tries digits = (n, leading - j + 1) := by
  induction tries generalizing digits with
  | zero => omega
  | succ tries ih =>
      rw [shortestFrom]
      cases hfind : (neighbours num den (leading - digits + 1)).find?
          fun n => ofDecimal false n (leading - digits + 1) = target with
      | some n =>
          exact ⟨digits, hle, n, List.mem_of_find?_eq_some hfind,
            by simpa using List.find?_some hfind, rfl⟩
      | none =>
          have hne : digits ≠ k := by
            rintro rfl
            obtain ⟨n, hmem, htarget⟩ := h
            exact List.find?_eq_none.mp hfind n hmem (decide_eq_true htarget)
          exact ih (by omega) (by omega)

theorem dropZeros_spec (budget digits : ℕ) (unit : ℤ) :
    ((dropZeros budget digits unit).1 : ℚ) * 10 ^ (dropZeros budget digits unit).2 =
        digits * 10 ^ unit ∧
      (dropZeros budget digits unit).1 ≤ digits ∧ unit ≤ (dropZeros budget digits unit).2 := by
  induction budget generalizing digits unit with
  | zero => exact ⟨rfl, le_rfl, le_rfl⟩
  | succ budget ih =>
      rw [dropZeros]
      split
      · rename_i hdrop
        obtain ⟨hvalue, hle, hunit⟩ := ih (digits / 10) (unit + 1)
        refine ⟨?_, by omega, by omega⟩
        have hsplit : digits = 10 * (digits / 10) := by omega
        rw [hvalue, zpow_add_one₀ (by norm_num)]
        conv_rhs => rw [hsplit]
        push_cast
        ring
      · exact ⟨rfl, le_rfl, le_rfl⟩

end Search

section Finite

variable {m : ℕ} {e : ℤ}

theorem rounded_finite (normal : IsNormal m e) : rounded (m * (2 : ℚ) ^ e) = m * (2 : ℚ) ^ e :=
  rounded_of_isRepresentable (by positivity) ⟨m, e, normal.1, normal.2.1, rfl⟩

/-- The power of ten of the first digit of a number. -/
def leading (m : ℕ) (e : ℤ) : ℤ := leadingPower (numerator m e) (denominator e)

theorem leading_bounds (normal : IsNormal m e) (hm : m ≠ 0) :
    -400 < leading m e ∧ (10 : ℚ) ^ leading m e ≤ m * (2 : ℚ) ^ e ∧
      m * (2 : ℚ) ^ e < 10 ^ (leading m e + 1) := by
  obtain ⟨j, hj, hexponent⟩ : ∃ j < 400, (-e).toNat ≤ 3 * j := by
    have hleast := normal.2.1
    exact ⟨358, by decide, by omega⟩
  have hden : denominator e ≤ numerator m e * 10 ^ j := by
    calc denominator e = 2 ^ (-e).toNat := rfl
      _ ≤ 2 ^ (3 * j) := Nat.pow_le_pow_right (by decide) hexponent
      _ = (2 ^ 3) ^ j := Nat.pow_mul 2 3 j
      _ ≤ 10 ^ j := Nat.pow_le_pow_left (by decide) j
      _ ≤ numerator m e * 10 ^ j := Nat.le_mul_of_pos_left _
          (Nat.mul_pos (Nat.pos_of_ne_zero hm) (pow2_pos e))
  rw [← numerator_div_denominator]
  rcases Nat.lt_or_ge (numerator m e) (denominator e) with hlt | hle
  · exact leadingPower_of_lt hlt hj hden
  · obtain ⟨hnonneg, hbounds⟩ := leadingPower_of_le (pow2_pos _) hle
    exact ⟨(by decide : (-400 : ℤ) < 0).trans_le hnonneg, hbounds⟩

section Grid

variable {r grid : ℚ}

theorem grid_lt (normal : IsNormal m e) (hfine : grid * 10 ^ 16 ≤ m * (2 : ℚ) ^ e) :
    grid < (2 : ℚ) ^ e := by
  have hunit : (0 : ℚ) < (2 : ℚ) ^ e := zpow_pos two_pos e
  have hm : (m : ℚ) < 2 ^ 53 := by exact_mod_cast normal.1
  have hdigits : (2 : ℚ) ^ 53 < 10 ^ 16 := by norm_num
  have htop : (m : ℚ) * (2 : ℚ) ^ e < 2 ^ 53 * (2 : ℚ) ^ e := by gcongr
  by_contra! hbig
  have hmul : (2 : ℚ) ^ e * 10 ^ 16 ≤ grid * 10 ^ 16 := by gcongr
  have hmul' : (2 : ℚ) ^ e * 2 ^ 53 < (2 : ℚ) ^ e * 10 ^ 16 := by gcongr
  linarith

/-- What lies within half a step of a number is rounded to it, if the steps are as fine as the
sixteenth digit. -/
theorem rounded_eq_of_grid (normal : IsNormal m e) (hpos : 0 < r)
    (hfine : grid * 10 ^ 16 ≤ m * (2 : ℚ) ^ e) (habove : m * (2 : ℚ) ^ e ≤ r + grid / 2)
    (hbelow : r ≤ m * (2 : ℚ) ^ e + grid / 2) : rounded r = m * (2 : ℚ) ^ e := by
  have hsmall := grid_lt normal hfine
  have hunit : (0 : ℚ) < (2 : ℚ) ^ e := zpow_pos two_pos e
  have htop : (m : ℚ) * (2 : ℚ) ^ e + (2 : ℚ) ^ e ≤ 2 ^ 53 * (2 : ℚ) ^ e := by
    have hm : (m : ℚ) + 1 ≤ 2 ^ 53 := by exact_mod_cast normal.1
    have hmul := mul_le_mul_of_nonneg_right hm hunit.le
    linarith
  have hnear : (e = -1074 ∨ 2 ^ 52 * (2 : ℚ) ^ e ≤ r) → rounded r = m * (2 : ℚ) ^ e :=
    fun hlarge => rounded_eq_of_near hpos normal.2.1 (by linarith) hlarge (by linarith)
      (by linarith)
  by_cases he : e = -1074
  · exact hnear (.inl he)
  rcases le_or_gt (2 ^ 52 * (2 : ℚ) ^ e) r with hlarge | hlt
  · exact hnear (.inr hlarge)
  -- below the power of two, where the significand is the least one, the numbers lie twice as close
  have hm : m = 2 ^ 52 := by
    have hleast := normal.2.2.2.resolve_right he
    refine le_antisymm ?_ hleast
    by_contra! hnext
    have hcast : (2 ^ 52 + 1 : ℚ) ≤ m := by exact_mod_cast hnext
    have hmul : ((2 : ℚ) ^ 52 + 1) * (2 : ℚ) ^ e ≤ m * (2 : ℚ) ^ e := by gcongr
    linarith
  have hhalf : (m : ℚ) * (2 : ℚ) ^ e = (2 ^ 53 : ℕ) * (2 : ℚ) ^ (e - 1) := by
    rw [hm, zpow_sub_one₀ two_ne_zero]
    push_cast
    ring
  have hlt' : r < 2 ^ 53 * (2 : ℚ) ^ (e - 1) := by
    rw [hm] at hhalf
    push_cast at hhalf
    linarith
  have hunit' : (0 : ℚ) < (2 : ℚ) ^ (e - 1) := zpow_pos two_pos _
  rw [hhalf] at hfine habove ⊢
  push_cast at hfine habove
  refine rounded_eq_of_near hpos (by have hleast := normal.2.1; omega) hlt' (.inr ?_) ?_ ?_
  · linarith
  · push_cast
    linarith
  · push_cast
    linarith

end Grid

theorem exists_seventeen_digits (normal : IsNormal m e) (hm : m ≠ 0) :
    ∃ n : ℕ, rounded (n * (10 : ℚ) ^ (leading m e - 16)) = m * (2 : ℚ) ^ e := by
  obtain ⟨-, hlow, -⟩ := leading_bounds normal hm
  have hfine : (10 : ℚ) ^ (leading m e - 16) * 10 ^ 16 ≤ m * (2 : ℚ) ^ e := by
    refine le_of_eq_of_le ?_ hlow
    rw [← zpow_natCast, ← zpow_add₀ (by norm_num)]
    congr 1
    push_cast
    ring
  obtain ⟨n, habove, hbelow⟩ :=
    @exists_near_neighbour (numerator m e) _ (pow2_pos (-e)).ne' (leading m e - 16)
  change (numerator m e / denominator e : ℚ) ≤ _ at habove
  change _ ≤ (numerator m e / denominator e : ℚ) + _ at hbelow
  rw [numerator_div_denominator] at habove hbelow
  have hgrid := zpow_ten_pos (leading m e - 16)
  exact ⟨n, rounded_eq_of_grid normal (by linarith) hfine habove hbelow⟩

/-- The digits read back, and are as few as those of some decimal that does. -/
theorem shortest_spec (normal : IsNormal m e) (hm : m ≠ 0) {k n : ℕ} (hk : 1 ≤ k) (hk' : k ≤ 17)
    (h : rounded (n * (10 : ℚ) ^ (leading m e - k + 1)) = m * (2 : ℚ) ^ e) :
    rounded ((shortest m e normal).1 * (10 : ℚ) ^ (shortest m e normal).2) = m * (2 : ℚ) ^ e ∧
      (shortest m e normal).1 ≤ 10 ^ k ∧ leading m e - k + 1 ≤ (shortest m e normal).2 := by
  have hden : denominator e ≠ 0 := (pow2_pos _).ne'
  have hself : rounded ((numerator m e : ℚ) / denominator e) = m * (2 : ℚ) ^ e := by
    rw [numerator_div_denominator, rounded_finite normal]
  obtain ⟨n', hmem, hn'⟩ := exists_mem_neighbours hden hself h
  have hreads := (@ofDecimal_eq_finite_iff false n' m _ e normal).mpr hn'
  obtain ⟨j, hj, found, hfound, htarget, hsearch⟩ :=
    @shortestFrom_spec _ _ (leading m e) _ 17 1 k hk (by omega) ⟨n', hmem, hreads⟩
  obtain ⟨hvalue, hle, hunit⟩ := dropZeros_spec 20 found (leading m e - j + 1)
  have hshortest : shortest m e normal = dropZeros 20 found (leading m e - j + 1) := by
    rw [shortest]
    simp only
    rw [show leadingPower (numerator m e) (denominator e) = leading m e from rfl, hsearch]
  rw [hshortest, hvalue]
  refine ⟨ofDecimal_eq_finite_iff.mp htarget, hle.trans ?_, by omega⟩
  -- the number has its first digit at `leading m e`, so that its neighbours have no more digits
  obtain ⟨below, hbelow, -, -, -, hneighbours⟩ :=
    @exists_below (numerator m e) (denominator e) hden (leading m e - j + 1)
  have hbound : below < 10 ^ j := by
    have hupper := (leading_bounds normal hm).2.2
    rw [numerator_div_denominator] at hbelow
    have hpower : (10 : ℚ) ^ (leading m e + 1) = 10 ^ j * 10 ^ (leading m e - j + 1) := by
      rw [← zpow_natCast, ← zpow_add₀ (by norm_num)]
      congr 1
      ring
    rw [hpower] at hupper
    have hcast := lt_of_mul_lt_mul_right (hbelow.trans_lt hupper) (zpow_ten_pos _).le
    exact_mod_cast hcast
  calc found ≤ below + 1 := hneighbours found hfound
    _ ≤ 10 ^ j := hbound
    _ ≤ 10 ^ k := Nat.pow_le_pow_right (by decide) hj

theorem rounded_shortest (normal : IsNormal m e) (hm : m ≠ 0) :
    rounded ((shortest m e normal).1 * (10 : ℚ) ^ (shortest m e normal).2) = m * (2 : ℚ) ^ e ∧
      (shortest m e normal).1 ≤ 10 ^ 17 ∧ -416 < (shortest m e normal).2 := by
  obtain ⟨n, hn⟩ := exists_seventeen_digits normal hm
  have hunit : leading m e - (17 : ℕ) + 1 = leading m e - 16 := by omega
  rw [← hunit] at hn
  obtain ⟨hreads, hle, hlow⟩ := shortest_spec normal hm (by decide) le_rfl hn
  have hfar := (leading_bounds normal hm).1
  exact ⟨hreads, hle, by omega⟩

theorem shortest_ne_zero (normal : IsNormal m e) (hm : m ≠ 0) : (shortest m e normal).1 ≠ 0 := by
  intro hzero
  have hreads := (rounded_shortest normal hm).1
  rw [hzero, Nat.cast_zero, zero_mul, rounded_of_isRepresentable le_rfl ⟨0, 0, by decide, by decide,
    by simp⟩] at hreads
  have hpos : (0 : ℚ) < m * (2 : ℚ) ^ e :=
    mul_pos (Nat.cast_pos.mpr (Nat.pos_of_ne_zero hm)) (zpow_pos two_pos e)
  exact hpos.ne hreads

theorem shortest_lt_one {normal : IsNormal m e} (hm : m ≠ 0) (h : m * (2 : ℚ) ^ e < 1) :
    ((shortest m e normal).1 : ℚ) * 10 ^ (shortest m e normal).2 < 1 := by
  by_contra! hle
  have hone : rounded 1 = 1 := rounded_of_isRepresentable zero_le_one
    (by exact_mod_cast @isRepresentable_natCast 1 (by decide))
  have hmono := rounded_mono zero_le_one hle
  rw [hone, (rounded_shortest normal hm).1] at hmono
  exact absurd h (not_lt.mpr hmono)

end Finite

end CertRotation.Binary64
