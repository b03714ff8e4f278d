import CertRotation.Binary64.Basic
import Mathlib.Algebra.Order.Field.Power
import Mathlib.Algebra.Order.Field.Rat
import Mathlib.Tactic.FieldSimp
import Mathlib.Tactic.Linarith
import Mathlib.Tactic.NormNum
import Mathlib.Tactic.Positivity
import Mathlib.Tactic.Push
import Mathlib.Tactic.Ring

/-!
Rounding to 53 bits, seen from the rational numbers. Rounding never passes over a number that can be
represented: what lies on one side of it stays on that side. This is all that bounds on rounded
results need.
-/

namespace CertRotation.Binary64

/-- The exact value; infinities and `nan` count as zero. -/
def value : Binary64 → ℚ
  | finite negative mantissa exponent _ =>
    (if negative then -1 else 1) * (mantissa * (2 : ℚ) ^ exponent)
  | _ => 0

/-- A magnitude with at most 53 significant bits. -/
def IsRepresentable (r : ℚ) : Prop :=
  ∃ (k : ℕ) (e : ℤ), k < 2 ^ 53 ∧ -1074 ≤ e ∧ r = k * (2 : ℚ) ^ e

theorem isRepresentable_natCast {n : ℕ} (h : n < 2 ^ 53) : IsRepresentable n :=
  ⟨n, 0, h, by decide, by simp⟩

theorem isRepresentable_half {n : ℕ} (h : n < 2 ^ 53) : IsRepresentable (n / 2) :=
  ⟨n, -1, h, by decide, by rw [zpow_neg_one, div_eq_mul_inv]⟩

theorem pow2_pos (e : ℤ) : 0 < pow2 e := Nat.pow_pos (by decide)

theorem pow2_div_pow2_neg (e : ℤ) : (pow2 e : ℚ) / pow2 (-e) = (2 : ℚ) ^ e := by
  have hsplit : e = (e.toNat : ℤ) - ((-e).toNat : ℤ) := by omega
  have hpow : ∀ e : ℤ, (pow2 e : ℚ) = (2 : ℚ) ^ (e.toNat : ℤ) := by
    intro e
    rw [pow2, zpow_natCast]
    exact Nat.cast_pow 2 _
  rw [hpow, hpow]
  conv_rhs => rw [hsplit, zpow_sub₀ two_ne_zero]

theorem numerator_div_denominator (m : ℕ) (e : ℤ) :
    (numerator m e : ℚ) / denominator e = m * (2 : ℚ) ^ e := by
  rw [numerator, denominator, Nat.cast_mul, mul_div_assoc, pow2_div_pow2_neg]

section Nearest

variable {num den k : ℕ}

theorem le_roundHalfEven (hden : 0 < den) (h : k * den ≤ num) : k ≤ roundHalfEven num den := by
  have hle : k ≤ num / den := (Nat.le_div_iff_mul_le hden).mpr h
  unfold roundHalfEven
  simp only
  split
  · omega
  · exact hle

theorem roundHalfEven_le (hden : 0 < den) (h : num ≤ k * den) : roundHalfEven num den ≤ k := by
  have hsplit := Nat.div_add_mod num den
  have hle : num / den ≤ k := Nat.div_le_of_le_mul (by rwa [Nat.mul_comm] at h)
  unfold roundHalfEven
  simp only
  split
  · rename_i hup
    refine Nat.lt_of_le_of_ne hle fun heq => ?_
    rw [heq, Nat.mul_comm] at hsplit
    omega
  · exact hle

end Nearest

section Exponent

variable {num den : ℕ}

theorem quotient_eq (num den : ℕ) (e : ℤ) :
    ((num * pow2 (-e) : ℕ) : ℚ) / (den * pow2 e : ℕ) = num / den / (2 : ℚ) ^ e := by
  have hpow := pow2_div_pow2_neg e
  have hpos : (0 : ℚ) < pow2 e := Nat.cast_pos.mpr (pow2_pos e)
  have hneg : (0 : ℚ) < pow2 (-e) := Nat.cast_pos.mpr (pow2_pos (-e))
  rw [← hpow, Nat.cast_mul, Nat.cast_mul]
  field_simp

theorem quotient_bounds (hnum : num ≠ 0) (hden : den ≠ 0) :
    (2 : ℚ) ^ ((num.log2 : ℤ) - den.log2 - 1) < num / den ∧
      (num / den : ℚ) < (2 : ℚ) ^ ((num.log2 : ℤ) - den.log2 + 1) := by
  have hbounds : ∀ n : ℕ, n ≠ 0 →
      (2 : ℚ) ^ (n.log2 : ℤ) ≤ n ∧ (n : ℚ) < (2 : ℚ) ^ ((n.log2 : ℤ) + 1) := by
    intro n hn
    constructor
    · rw [zpow_natCast]
      exact_mod_cast Nat.log2_self_le hn
    · have hlt : n < 2 ^ (n.log2 + 1) := Nat.lt_log2_self
      exact_mod_cast hlt
  obtain ⟨hnumLow, hnumHigh⟩ := hbounds num hnum
  obtain ⟨hdenLow, hdenHigh⟩ := hbounds den hden
  have hdenPos : (0 : ℚ) < den := Nat.cast_pos.mpr (Nat.pos_of_ne_zero hden)
  constructor
  · rw [lt_div_iff₀ hdenPos]
    calc (2 : ℚ) ^ ((num.log2 : ℤ) - den.log2 - 1) * den
        < (2 : ℚ) ^ ((num.log2 : ℤ) - den.log2 - 1) * (2 : ℚ) ^ ((den.log2 : ℤ) + 1) := by
          gcongr
      _ = (2 : ℚ) ^ (num.log2 : ℤ) := by
          rw [← zpow_add₀ two_ne_zero]
          congr 1
          ring
      _ ≤ num := hnumLow
  · rw [div_lt_iff₀ hdenPos]
    calc (num : ℚ) < (2 : ℚ) ^ ((num.log2 : ℤ) + 1) := hnumHigh
      _ = (2 : ℚ) ^ ((num.log2 : ℤ) - den.log2 + 1) * (2 : ℚ) ^ (den.log2 : ℤ) := by
          rw [← zpow_add₀ two_ne_zero]
          congr 1
          ring
      _ ≤ (2 : ℚ) ^ ((num.log2 : ℤ) - den.log2 + 1) * den := by gcongr

/-- The exponent of a quotient leaves a mantissa below 53 bits, and one of 53 bits unless it is the
least exponent. -/
theorem exponentOf_bounds (hnum : num ≠ 0) (hden : den ≠ 0) :
    -1074 ≤ exponentOf num den ∧ (num / den : ℚ) < 2 ^ 53 * (2 : ℚ) ^ exponentOf num den ∧
      (exponentOf num den = -1074 ∨ 2 ^ 52 * (2 : ℚ) ^ exponentOf num den ≤ num / den) := by
  obtain ⟨hlow, hhigh⟩ := quotient_bounds hnum hden
  have hshift : ∀ (k : ℕ) (e : ℤ), (2 : ℚ) ^ k * (2 : ℚ) ^ e = (2 : ℚ) ^ (k + e) := by
    intro k e
    rw [zpow_add₀ two_ne_zero, zpow_natCast]
  generalize hfirst : (num.log2 : ℤ) - den.log2 - 52 = first at *
  have htest : num * pow2 (-first) / (den * pow2 first) < Nat.pow 2 52 ↔
      (num / den : ℚ) < 2 ^ 52 * (2 : ℚ) ^ first := by
    have hpos : 0 < den * pow2 first := Nat.mul_pos (Nat.pos_of_ne_zero hden) (pow2_pos first)
    rw [Nat.div_lt_iff_lt_mul hpos, ← div_lt_iff₀ (zpow_pos two_pos first), ← quotient_eq,
      div_lt_iff₀ (Nat.cast_pos.mpr hpos)]
    exact_mod_cast Iff.rfl
  -- the exponent before it is kept from falling below the least one
  obtain ⟨e, he, hsmall, hlarge⟩ : ∃ e, exponentOf num den = max (-1074) e ∧
      (num / den : ℚ) < 2 ^ 53 * (2 : ℚ) ^ e ∧ 2 ^ 52 * (2 : ℚ) ^ e ≤ num / den := by
    by_cases h : (num / den : ℚ) < 2 ^ 52 * (2 : ℚ) ^ first
    · refine ⟨first - 1, ?_, ?_, ?_⟩
      · rw [exponentOf, hfirst]
        simp only [if_pos (htest.mpr h)]
      · rw [hshift] at h ⊢
        convert h using 2
        push_cast
        ring
      · rw [hshift]
        refine le_of_eq_of_le ?_ hlow.le
        congr 1
        push_cast
        omega
    · refine ⟨first, ?_, ?_, not_lt.mp h⟩
      · rw [exponentOf, hfirst]
        simp only [if_neg (mt htest.mp h)]
      · rw [hshift]
        refine lt_of_lt_of_eq hhigh ?_
        congr 1
        push_cast
        omega
  rw [he]
  rcases le_total (-1074) e with hle | hle
  · rw [max_eq_right hle]
    exact ⟨hle, hsmall, .inr hlarge⟩
  · rw [max_eq_left hle]
    refine ⟨le_rfl, lt_of_lt_of_le hsmall ?_, .inl rfl⟩
    gcongr
    exact one_le_two

end Exponent

/-- A mantissa and an exponent are what a magnitude is rounded to: no number that can be represented
lies between the two. -/
structure IsRounded (x : ℚ) (m : ℕ) (e : ℤ) : Prop where
  lt : m < 2 ^ 53
  least_le : -1074 ≤ e
  normal : 2 ^ 52 ≤ m ∨ e = -1074
  le_of_le (r : ℚ) : IsRepresentable r → r ≤ x → r ≤ m * (2 : ℚ) ^ e
  ge_of_ge (r : ℚ) : IsRepresentable r → x ≤ r → m * (2 : ℚ) ^ e ≤ r

theorem top_le_bottom {e e' : ℤ} (h : e < e') :
    2 ^ 53 * (2 : ℚ) ^ e ≤ 2 ^ 52 * (2 : ℚ) ^ e' := by
  calc (2 : ℚ) ^ 53 * (2 : ℚ) ^ e = 2 ^ 52 * (2 : ℚ) ^ (e + 1) := by
        rw [zpow_add_one₀ two_ne_zero]
        ring
    _ ≤ 2 ^ 52 * (2 : ℚ) ^ e' := by
        gcongr
        · exact one_le_two
        · omega

/-- Rounding at an exponent does not pass over what can be represented: at a greater exponent that
is a whole number of units, and at a smaller one it lies below all numbers of 53 bits. -/
theorem between_of_nearest {x : ℚ} {m : ℕ} {e : ℤ}
    (hlarge : e = -1074 ∨ 2 ^ 52 * (2 : ℚ) ^ e ≤ x)
    (hbelow : ∀ k : ℕ, k * (2 : ℚ) ^ e ≤ x → k ≤ m)
    (habove : ∀ k : ℕ, x ≤ k * (2 : ℚ) ^ e → m ≤ k) {r : ℚ} (hr : IsRepresentable r) :
    (r ≤ x → r ≤ m * (2 : ℚ) ^ e) ∧ (x ≤ r → m * (2 : ℚ) ^ e ≤ r) := by
  obtain ⟨k, e', hk, he', rfl⟩ := hr
  rcases le_or_gt e e' with hle | hlt
  · obtain ⟨d, rfl⟩ := Int.le.dest hle
    have hunits : (k : ℚ) * (2 : ℚ) ^ (e + d) = (k * 2 ^ d : ℕ) * (2 : ℚ) ^ e := by
      rw [zpow_add₀ two_ne_zero, zpow_natCast]
      push_cast
      ring
    rw [hunits]
    constructor
    · intro h
      have hcast : ((k * 2 ^ d : ℕ) : ℚ) ≤ m := Nat.cast_le.mpr (hbelow _ h)
      gcongr
    · intro h
      have hcast : (m : ℚ) ≤ (k * 2 ^ d : ℕ) := Nat.cast_le.mpr (habove _ h)
      gcongr
  · have hnormal := hlarge.resolve_left (by omega)
    have hsmall : (k : ℚ) * (2 : ℚ) ^ e' < 2 ^ 52 * (2 : ℚ) ^ e := by
      have hbound : (k : ℚ) < 2 ^ 53 := by exact_mod_cast hk
      calc (k : ℚ) * (2 : ℚ) ^ e' < 2 ^ 53 * (2 : ℚ) ^ e' := by gcongr
        _ ≤ 2 ^ 52 * (2 : ℚ) ^ e := top_le_bottom hlt
    constructor
    · intro _
      have hmantissa : 2 ^ 52 ≤ m := hbelow (2 ^ 52) (by exact_mod_cast hnormal)
      have hcast : (2 ^ 52 : ℚ) ≤ m := by exact_mod_cast hmantissa
      exact hsmall.le.trans (by gcongr)
    · intro h
      exact absurd (hsmall.trans_le hnormal) (not_lt.mpr h)

/-- A quotient rounded to a whole number of units of its exponent. -/
def nearest (num den : ℕ) : ℚ :=
  roundHalfEven (num * pow2 (-exponentOf num den)) (den * pow2 (exponentOf num den)) *
    (2 : ℚ) ^ exponentOf num den

section Quotient

variable {num den : ℕ}

theorem nearest_zero (hden : den ≠ 0) : nearest 0 den = 0 := by
  have hpos : 0 < den * pow2 (exponentOf 0 den) :=
    Nat.mul_pos (Nat.pos_of_ne_zero hden) (pow2_pos _)
  have hround : roundHalfEven (0 * pow2 (-exponentOf 0 den)) (den * pow2 (exponentOf 0 den)) = 0 :=
    Nat.le_zero.mp (roundHalfEven_le hpos (by simp))
  rw [nearest, hround, Nat.cast_zero, zero_mul]

theorem le_nearest {k : ℕ} (hden : den ≠ 0) (h : k * (2 : ℚ) ^ exponentOf num den ≤ num / den) :
    k ≤ roundHalfEven (num * pow2 (-exponentOf num den)) (den * pow2 (exponentOf num den)) := by
  have hpos : 0 < den * pow2 (exponentOf num den) :=
    Nat.mul_pos (Nat.pos_of_ne_zero hden) (pow2_pos _)
  rw [← le_div_iff₀ (zpow_pos two_pos _), ← quotient_eq, le_div_iff₀ (Nat.cast_pos.mpr hpos)] at h
  exact le_roundHalfEven hpos (by exact_mod_cast h)

theorem nearest_le {k : ℕ} (hden : den ≠ 0) (h : num / den ≤ k * (2 : ℚ) ^ exponentOf num den) :
    roundHalfEven (num * pow2 (-exponentOf num den)) (den * pow2 (exponentOf num den)) ≤ k := by
  have hpos : 0 < den * pow2 (exponentOf num den) :=
    Nat.mul_pos (Nat.pos_of_ne_zero hden) (pow2_pos _)
  rw [← div_le_iff₀ (zpow_pos two_pos _), ← quotient_eq, div_le_iff₀ (Nat.cast_pos.mpr hpos)] at h
  exact roundHalfEven_le hpos (by exact_mod_cast h)

theorem nearest_between (hden : den ≠ 0) {r : ℚ} (hr : IsRepresentable r) :
    (r ≤ num / den → r ≤ nearest num den) ∧ (num / den ≤ r → nearest num den ≤ r) := by
  by_cases hnum : num = 0
  · rw [hnum, nearest_zero hden, Nat.cast_zero, zero_div]
    exact ⟨id, id⟩
  · obtain ⟨-, -, hlarge⟩ := exponentOf_bounds hnum hden
    exact between_of_nearest hlarge (fun _ => le_nearest hden) (fun _ => nearest_le hden) hr

theorem ofRatio_of_ne (negative : Bool) {num : ℕ} (hnum : num ≠ 0) (den : ℕ) :
    ofRatio negative num den =
      let e := exponentOf num den
      let m := roundHalfEven (num * pow2 (-e)) (den * pow2 e)
      let (m, e) := if m = Nat.pow 2 53 then (Nat.pow 2 52, e + 1) else (m, e)
      if h : IsNormal m e then finite negative m e h else infinite negative := by
  rw [ofRatio, if_neg hnum]

theorem exists_nearest (num : ℕ) (hden : den ≠ 0) :
    ∃ (m : ℕ) (e : ℤ), m < 2 ^ 53 ∧ -1074 ≤ e ∧ (2 ^ 52 ≤ m ∨ e = -1074) ∧
      m * (2 : ℚ) ^ e = nearest num den ∧ ∀ negative, ofRatio negative num den =
        if h : IsNormal m e then finite negative m e h else infinite negative := by
  by_cases hnum : num = 0
  · subst hnum
    refine ⟨0, -1074, by decide, le_rfl, .inr rfl, ?_, fun negative => ?_⟩
    · rw [nearest_zero hden, Nat.cast_zero, zero_mul]
    · rw [ofRatio, if_pos rfl, dif_pos (by decide)]
  obtain ⟨hleast, hsmall, hlarge⟩ := exponentOf_bounds hnum hden
  have hbelow : ∀ k : ℕ, k * (2 : ℚ) ^ exponentOf num den ≤ num / den → k ≤ _ :=
    fun _ => le_nearest hden
  have hle := @nearest_le num den (2 ^ 53) hden (by exact_mod_cast hsmall.le)
  have hratio := fun negative => ofRatio_of_ne negative hnum den
  rw [nearest]
  generalize exponentOf num den = e at *
  generalize hm : roundHalfEven (num * pow2 (-e)) (den * pow2 e) = m at *
  by_cases hcarry : m = 2 ^ 53
  · refine ⟨2 ^ 52, e + 1, by decide, by omega, .inl le_rfl, ?_, fun negative => ?_⟩
    · rw [hcarry, zpow_add_one₀ two_ne_zero]
      push_cast
      ring
    · rw [hratio]
      simp only [hm, if_pos (show m = Nat.pow 2 53 from hcarry)]
      rfl
  · refine ⟨m, e, lt_of_le_of_ne hle hcarry, hleast, ?_, rfl, fun negative => ?_⟩
    · rcases hlarge with hlarge | hlarge
      · exact .inr hlarge
      · exact .inl (hbelow _ (by exact_mod_cast hlarge))
    · rw [hratio]
      simp only [hm, if_neg (show ¬m = Nat.pow 2 53 from hcarry)]

end Quotient

theorem exists_isRounded (negative : Bool) (num : ℕ) {den : ℕ} (hden : den ≠ 0) :
    ∃ m e, IsRounded (num / den) m e ∧ ofRatio negative num den =
      if h : IsNormal m e then finite negative m e h else infinite negative := by
  obtain ⟨m, e, hlt, hleast, hnormal, hvalue, heq⟩ := exists_nearest num hden
  refine ⟨m, e, ⟨hlt, hleast, hnormal, ?_, ?_⟩, heq negative⟩
  · intro r hr
    rw [hvalue]
    exact (nearest_between hden hr).1
  · intro r hr
    rw [hvalue]
    exact (nearest_between hden hr).2

theorem ofRatio_of_le (negative : Bool) {num den : ℕ} (hden : den ≠ 0) {bound : ℕ}
    (hbound : bound < 2 ^ 53) (h : (num / den : ℚ) ≤ bound) :
    ∃ m e normal, ofRatio negative num den = finite negative m e normal ∧
      IsRounded (num / den) m e := by
  obtain ⟨m, e, hrounded, heq⟩ := exists_isRounded negative num hden
  have hle := hrounded.ge_of_ge bound (isRepresentable_natCast hbound) h
  have hexponent : e ≤ 971 := by
    rcases hrounded.normal with hnormal | hleast
    · by_contra hbig
      have hcast : (2 ^ 52 : ℚ) ≤ m := by exact_mod_cast hnormal
      have hpower : (2 : ℚ) ^ (1 : ℤ) ≤ (2 : ℚ) ^ e := zpow_le_zpow_right₀ one_le_two (by omega)
      have htoo : (2 : ℚ) ^ 52 * (2 : ℚ) ^ (1 : ℤ) ≤ m * (2 : ℚ) ^ e := by gcongr
      have hsmall : (bound : ℚ) < 2 ^ 53 := by exact_mod_cast hbound
      have hunits : (2 : ℚ) ^ 52 * (2 : ℚ) ^ (1 : ℤ) = 2 ^ 53 := by norm_num
      linarith
    · omega
  have hnormal : IsNormal m e :=
    ⟨hrounded.lt, hrounded.least_le, hexponent, hrounded.normal⟩
  exact ⟨m, e, hnormal, by rw [heq, dif_pos hnormal], hrounded⟩

section Value

variable {x y : Binary64} {n : ℕ}

theorem scaled_eq (negative : Bool) {m : ℕ} {e : ℤ} (normal : IsNormal m e) :
    (scaled negative m e : ℚ) =
      (finite negative m e normal).value * (2 : ℚ) ^ (1074 : ℤ) := by
  have hexponent : ((e + 1074).toNat : ℤ) = e + 1074 := Int.toNat_of_nonneg (by omega)
  have hpow : ((pow2 (e + 1074) : ℤ) : ℚ) = (2 : ℚ) ^ e * (2 : ℚ) ^ (1074 : ℤ) := by
    rw [← zpow_add₀ two_ne_zero, ← hexponent, zpow_natCast]
    exact Nat.cast_pow 2 _
  have hunits : ((m * pow2 (e + 1074) : ℤ) : ℚ) =
      m * (2 : ℚ) ^ e * (2 : ℚ) ^ (1074 : ℤ) := by
    rw [Int.cast_mul, hpow, Int.cast_natCast, mul_assoc]
  cases negative with
  | false => simpa [scaled, value] using hunits
  | true => simpa [scaled, value] using hunits

theorem lt_iff_value (hx : x.isFinite = true) (hy : y.isFinite = true) :
    x < y ↔ x.value < y.value := by
  cases x with
  | nan => cases hx
  | infinite => cases hx
  | finite s m e normal =>
      cases y with
      | nan => cases hy
      | infinite => cases hy
      | finite s' m' e' normal' =>
          have hpow : (0 : ℚ) < (2 : ℚ) ^ (1074 : ℤ) := zpow_pos two_pos _
          rw [← mul_lt_mul_iff_left₀ hpow, ← scaled_eq, ← scaled_eq, Int.cast_lt]
          exact decide_eq_true_iff

theorem value_zero : zero.value = 0 := by simp [zero, value]

theorem exists_ofInt_natCast (h : n < 2 ^ 53) :
    ∃ m e normal, ofInt n = finite false m e normal ∧ (m : ℚ) * (2 : ℚ) ^ e = n := by
  have hself : ((n : ℕ) / (1 : ℕ) : ℚ) = n := by simp
  obtain ⟨m, e, normal, heq, hrounded⟩ := ofRatio_of_le false one_ne_zero h hself.le
  refine ⟨m, e, normal, ?_, ?_⟩
  · rw [ofInt, ← heq, Int.natAbs_natCast]
    congr 1
  · rw [hself] at hrounded
    have hrepresentable := isRepresentable_natCast h
    exact le_antisymm (hrounded.ge_of_ge n hrepresentable le_rfl)
      (hrounded.le_of_le n hrepresentable le_rfl)

theorem value_ofInt_natCast (h : n < 2 ^ 53) : (ofInt n).value = n := by
  obtain ⟨m, e, normal, heq, hvalue⟩ := exists_ofInt_natCast h
  simpa [heq, value] using hvalue

/-- A product with a number between zero and one is the exact product, rounded. -/
theorem exists_mul_natCast (h : n < 2 ^ 53) (hx : x.isFinite = true) (hpos : 0 < x.value)
    (hle : x.value ≤ 1) :
    ∃ m e normal, (ofInt n).mul x = finite false m e normal ∧ IsRounded (n * x.value) m e := by
  obtain ⟨m, e, normal, heq, hvalue⟩ := exists_ofInt_natCast h
  cases x with
  | nan => cases hx
  | infinite => cases hx
  | finite s m' e' normal' =>
      have hsign : s = false := by
        cases s with
        | false => rfl
        | true =>
            have hnonneg : (0 : ℚ) ≤ m' * (2 : ℚ) ^ e' := by positivity
            simp only [value, if_true] at hpos
            linarith
      subst hsign
      have hexact : ((numerator m e * numerator m' e' : ℕ) : ℚ) /
          (denominator e * denominator e' : ℕ) = n * (finite false m' e' normal').value := by
        rw [Nat.cast_mul, Nat.cast_mul, mul_div_mul_comm, numerator_div_denominator,
          numerator_div_denominator, hvalue]
        simp [value]
      have hden : denominator e * denominator e' ≠ 0 :=
        (Nat.mul_pos (pow2_pos _) (pow2_pos _)).ne'
      have hbound : ((numerator m e * numerator m' e' : ℕ) : ℚ) /
          (denominator e * denominator e' : ℕ) ≤ n := by
        rw [hexact]
        exact mul_le_of_le_one_right (Nat.cast_nonneg n) hle
      obtain ⟨k, d, hk, hproduct, hrounded⟩ := ofRatio_of_le false hden h hbound
      rw [hexact] at hrounded
      exact ⟨k, d, hk, by rw [heq]; exact hproduct, hrounded⟩

theorem le_roundMagnitude_iff {m k : ℕ} {e : ℤ} :
    k ≤ roundMagnitude m e ↔ (k : ℚ) - 1 / 2 ≤ m * (2 : ℚ) ^ e := by
  have hpos : 0 < denominator e := pow2_pos _
  have hcast : (0 : ℚ) < denominator e := Nat.cast_pos.mpr hpos
  rw [roundMagnitude, Nat.le_div_iff_mul_le (Nat.mul_pos two_pos hpos),
    ← numerator_div_denominator, le_div_iff₀ hcast, ← Nat.cast_le (α := ℚ)]
  push_cast
  constructor
  · intro h
    linarith
  · intro h
    linarith

end Value

end CertRotation.Binary64
