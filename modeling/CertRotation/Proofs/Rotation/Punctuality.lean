import CertRotation.Proofs.Binary64.Rounding
import CertRotation.Proofs.Rotation.Expiry
import CertRotation.Proofs.Time.LeapSeconds
import CertRotation.Proofs.X509.Years

/-!
Deadlines at a factor of the validity. What decides whether a deadline lies strictly inside the
validity is the product of factor and length in milliseconds: at less than half a millisecond it is
rounded to the start, and at half a millisecond from the whole length to the end.
-/

namespace CertRotation

namespace RotationSettings

variable {settings : RotationSettings} {t : Instant}

theorem checkFactor_eq_ok {field : FactorField} {factor : Binary64}
    (h : checkFactor field factor = .ok ()) :
    factor.isFinite = true ∧ 0 < factor.value ∧ factor.value < 1 := by
  unfold checkFactor at h
  split at h
  · rename_i hbounds
    obtain ⟨hlow, hhigh⟩ := hbounds
    have hfinite : factor.isFinite = true := by
      cases factor with
      | nan => cases hlow
      | infinite negative =>
          cases negative with
          | true => cases hlow
          | false => cases hhigh
      | finite => rfl
    have hone : Binary64.one.value = 1 := @Binary64.value_ofInt_natCast 1 (by decide)
    rw [Binary64.lt_iff_value rfl hfinite, Binary64.value_zero] at hlow
    rw [Binary64.lt_iff_value hfinite (by decide), hone] at hhigh
    exact ⟨hfinite, hlow, hhigh⟩
  · cases h

theorem factors_of_check (h : settings.check t = .ok ()) :
    ∀ factor ∈ [settings.jitterMin, settings.jitterMax],
      factor.isFinite = true ∧ 0 < factor.value ∧ factor.value < 1 := by
  simp only [check, guard_bind_eq_ok_iff] at h
  obtain ⟨-, h⟩ := h
  cases hduration : settings.certDuration? with
  | none => simp [hduration] at h
  | some duration =>
      simp only [hduration, guard_bind_eq_ok_iff, bind_eq_ok_iff] at h
      obtain ⟨-, _, hmin, _, hmax, -⟩ := h
      intro factor hmem
      simp only [List.mem_cons, List.not_mem_nil, or_false] at hmem
      obtain rfl | rfl := hmem
      · exact checkFactor_eq_ok hmin
      · exact checkFactor_eq_ok hmax

theorem check_eq_ok (h : settings.check t = .ok ()) :
    0 < settings.certSeconds.toNat ∧
      settings.certDuration = .ofSeconds settings.certSeconds.toNat ∧
      0 < settings.jitterMin.value ∧ settings.jitterMax.value < 1 := by
  have hmin := factors_of_check h settings.jitterMin (by simp)
  have hmax := factors_of_check h settings.jitterMax (by simp)
  simp only [check, guard_bind_eq_ok_iff] at h
  obtain ⟨hzero, h⟩ := h
  refine ⟨?_, ?_, hmin.2.1, hmax.2.2⟩
  · rw [Nat.pos_iff_ne_zero]
    intro hnone
    exact hzero (UInt64.toNat_inj.mp hnone)
  · cases hduration : settings.certDuration? with
    | none => simp [hduration] at h
    | some duration =>
        rw [certDuration, hduration, Option.getD_some]
        unfold certDuration? at hduration
        simp only at hduration
        split at hduration
        · exact (Option.some.inj hduration).symm
        · cases hduration

end RotationSettings

namespace Jitter

variable {milliseconds : ℕ} {factor : Binary64}

theorem wholeMilliseconds_ofMilliseconds (n : ℤ) :
    (Duration.ofMilliseconds n).wholeMilliseconds = n :=
  Int.mul_tdiv_cancel n (by decide)

/-- A length in milliseconds times a factor, as the program computes it. -/
def product (milliseconds : ℕ) (factor : Binary64) : ℚ :=
  ((Binary64.ofInt milliseconds).mul factor).value

/-- An offset is a whole number of milliseconds, the product rounded with halves up. The product is
exact but for rounding, which keeps it on its side of all that can be represented. -/
theorem exists_scale_eq (h : milliseconds < 2 ^ 53) (hfinite : factor.isFinite = true)
    (hpos : 0 < factor.value) (hle : factor.value < 1) :
    ∃ n : ℕ, scale (.ofMilliseconds milliseconds) factor = .ofMilliseconds n ∧
      (∀ k : ℕ, k ≤ n ↔ (k : ℚ) - 1 / 2 ≤ product milliseconds factor) ∧
      ∀ r, Binary64.IsRepresentable r →
        (r ≤ milliseconds * factor.value → r ≤ product milliseconds factor) ∧
        (milliseconds * factor.value ≤ r → product milliseconds factor ≤ r) := by
  obtain ⟨m, e, normal, hmul, hrounded⟩ :=
    Binary64.exists_mul_natCast h hfinite hpos hle.le
  have hproduct : product milliseconds factor = m * (2 : ℚ) ^ e := by
    rw [product, hmul]
    simp [Binary64.value]
  have hupper : product milliseconds factor ≤ milliseconds := by
    rw [hproduct]
    exact hrounded.ge_of_ge _ (Binary64.isRepresentable_natCast h)
      (mul_le_of_le_one_right (Nat.cast_nonneg _) hle.le)
  have hbound : Binary64.roundMagnitude m e ≤ milliseconds := by
    by_contra hlarge
    have hnext := Binary64.le_roundMagnitude_iff.mp (Nat.lt_of_not_le hlarge)
    rw [← hproduct] at hnext
    push_cast at hnext
    linarith
  refine ⟨Binary64.roundMagnitude m e, ?_, ?_, ?_⟩
  · -- The product is at most the length, so that neither conversion saturates.
    have hinteger : ((Binary64.ofInt milliseconds).mul factor).toInt64 =
        Binary64.roundMagnitude m e := by
      rw [hmul]
      change min ((Binary64.int64Limit : ℤ) - 1) (Binary64.roundMagnitude m e) = _
      have hlimit : Binary64.int64Limit = 2 ^ 63 := rfl
      omega
    have hrange :
        (Duration.ofMilliseconds (Binary64.roundMagnitude m e)).inRange = true := by
      refine Bool.and_eq_true_iff.mpr ⟨decide_eq_true ?_, decide_eq_true ?_⟩
      · change (-9223372036854775807 : ℤ) * 1000000 ≤ (Binary64.roundMagnitude m e : ℤ) * 1000000
        omega
      · change (Binary64.roundMagnitude m e : ℤ) * 1000000 ≤ 9223372036854775807 * 1000000
        omega
    simp only [scale, wholeMilliseconds_ofMilliseconds, hinteger, hrange, if_true]
  · intro k
    rw [hproduct]
    exact Binary64.le_roundMagnitude_iff
  · intro r hr
    rw [hproduct]
    exact ⟨hrounded.le_of_le r hr, hrounded.ge_of_ge r hr⟩

end Jitter

/-- A deadline at a whole number of milliseconds, in a validity of a whole number of them. -/
theorem rotationDeadline_lt_iff {notBefore notAfter : Instant} {jitter : Jitter}
    {milliseconds n : ℕ} (hstart : notBefore.IsRegular) (hend : notAfter.IsRegular)
    (hlength : notAfter.nanoseconds = notBefore.nanoseconds + milliseconds * 1000000)
    (hoffset : jitter (.ofMilliseconds milliseconds) = .ofMilliseconds n) :
    (notBefore < rotationDeadline notBefore notAfter jitter ↔ 0 < n ∧ 0 < milliseconds) ∧
      (rotationDeadline notBefore notAfter jitter < notAfter ↔ n < milliseconds) := by
  obtain ⟨hregular, hsum⟩ := @rotationDeadline_nanoseconds _ notAfter hstart jitter
  have hle : notBefore ≤ notAfter := (Instant.le_iff_nanoseconds hstart hend).mpr (by omega)
  have hwindow : validityWindow notBefore notAfter = .ofMilliseconds milliseconds := by
    rw [validityWindow_eq hstart hend hle, hlength]
    simp [Duration.ofMilliseconds]
  have hclamp : ((Duration.ofMilliseconds n).clamp .zero
      (.ofMilliseconds milliseconds)).nanoseconds = min n milliseconds * 1000000 := by
    have hlow : ¬Duration.ofMilliseconds n < .zero :=
      Int.not_lt.mpr (Int.mul_nonneg (Int.natCast_nonneg n) (by decide))
    rw [Duration.clamp, if_neg hlow]
    split
    · rename_i hlarge
      change (milliseconds : ℤ) * 1000000 < n * 1000000 at hlarge
      change (milliseconds : ℤ) * 1000000 = _
      omega
    · rename_i hsmall
      change ¬(milliseconds : ℤ) * 1000000 < n * 1000000 at hsmall
      change (n : ℤ) * 1000000 = _
      omega
  rw [hwindow, hoffset, hclamp] at hsum
  rw [Instant.lt_iff_nanoseconds hstart hregular, Instant.lt_iff_nanoseconds hregular hend, hsum,
    hlength]
  omega

theorem Issuance.exists_window_of_issueAuthority {config : SubjectConfig} {key : PrivateKey}
    {s : ℕ} {now : Instant} {ca : Certificate}
    (h : issueAuthority config key (.ofSeconds s) now = .ok ca) (hnow : now.nanos < 2000000000)
    (hs : 0 < s) :
    ca.notBefore.IsRegular ∧ ca.notAfter.IsRegular ∧
      ca.notAfter.nanoseconds = ca.notBefore.nanoseconds + (1000 * s : ℕ) * 1000000 ∧
      1000 * s < 2 ^ 53 := by
  obtain ⟨stop, hstop, hwritable, -⟩ := issueAuthority_eq_ok h
  obtain ⟨hbefore, stop', hstop', hafter⟩ := issueAuthority_validity h
  obtain rfl : stop = stop' := Option.some.inj (hstop.symm.trans hstop')
  have hplus : now.plus (.ofSeconds s) = stop := by
    obtain ⟨hsum, -⟩ := Option.filter_eq_some_iff.mp hstop
    unfold Instant.add? at hsum
    simp only at hsum
    split at hsum
    · exact Option.some.inj hsum
    · cases hsum
  have hseconds := Instant.seconds_plus_ofSeconds hnow hs
  rw [hplus] at hseconds
  have hends : isWritable now = true ∧ isWritable stop = true := by
    unfold checkWritable at hwritable
    split at hwritable
    · rename_i hboth
      exact Bool.and_eq_true_iff.mp hboth
    · cases hwritable
  have hfirst := Instant.seconds_bounds hends.1
  have hlast := Instant.seconds_bounds hends.2
  rw [hbefore, hafter]
  refine ⟨Instant.IsWholeSecond.isRegular rfl, Instant.IsWholeSecond.isRegular rfl, ?_, ?_⟩
  · simp only [Instant.nanoseconds, Instant.truncate, Duration.second, hseconds]
    push_cast
    omega
  · omega

/-- With settings that are accepted, the deadline of an authority that was issued with them lies
within its validity. It comes after the start exactly if the product of length and factor is half a
millisecond or more, and before the end exactly if it stays more than half a millisecond below the
length. Exact products of half a millisecond, and of a millisecond less than the length, are on the
safe side of rounding. -/
theorem rotationDeadline_of_check {settings : RotationSettings} {t now : Instant}
    {config : SubjectConfig} {key : PrivateKey} {ca : Certificate} {factor : Binary64}
    (hcheck : settings.check t = .ok ())
    (hca : Issuance.issueAuthority config key settings.certDuration now = .ok ca)
    (hnow : now.nanos < 2000000000) (hfinite : factor.isFinite = true)
    (hmin : settings.jitterMin.value ≤ factor.value)
    (hmax : factor.value ≤ settings.jitterMax.value) :
    let milliseconds := 1000 * settings.certSeconds.toNat
    let deadline := rotationDeadline ca.notBefore ca.notAfter (.atFactor factor)
    (ca.notBefore ≤ deadline ∧ deadline ≤ ca.notAfter) ∧
      (ca.notBefore < deadline ↔ 1 / 2 ≤ Jitter.product milliseconds factor) ∧
      (deadline < ca.notAfter ↔ Jitter.product milliseconds factor < milliseconds - 1 / 2) ∧
      (1 / 2 ≤ milliseconds * factor.value → ca.notBefore < deadline) ∧
      (milliseconds * factor.value ≤ milliseconds - 1 → deadline < ca.notAfter) := by
  intro milliseconds deadline
  obtain ⟨hpos, hduration, hlow, hhigh⟩ := RotationSettings.check_eq_ok hcheck
  rw [hduration] at hca
  obtain ⟨hstart, hend, hlength, hsize⟩ :=
    Issuance.exists_window_of_issueAuthority hca hnow hpos
  have hle : ca.notBefore ≤ ca.notAfter :=
    (Instant.le_iff_nanoseconds hstart hend).mpr (by omega)
  obtain ⟨n, hscale, hround, hside⟩ := Jitter.exists_scale_eq hsize hfinite
    (lt_of_lt_of_le hlow hmin) (lt_of_le_of_lt hmax hhigh)
  obtain ⟨hafter, hbefore⟩ :=
    @rotationDeadline_lt_iff _ _ (.atFactor factor) _ _ hstart hend hlength hscale
  have hstarts : ca.notBefore < deadline ↔ 1 / 2 ≤ Jitter.product milliseconds factor := by
    have hone := hround 1
    rw [hafter, and_iff_left (by omega)]
    norm_num at hone
    exact hone
  have hends : deadline < ca.notAfter ↔
      Jitter.product milliseconds factor < milliseconds - 1 / 2 := by
    rw [hbefore, ← not_le, hround, not_le]
  refine ⟨rotationDeadline_bounds hstart hend hle _, hstarts, hends, ?_, ?_⟩
  · intro h
    rw [hstarts]
    exact (hside _ (by exact_mod_cast Binary64.isRepresentable_half (by decide : 1 < 2 ^ 53))).1 h
  · intro h
    have hless : ((milliseconds - 1 : ℕ) : ℚ) = milliseconds - 1 :=
      Nat.cast_pred (Nat.mul_pos (by decide) hpos)
    have hrounded := (hside _ (Binary64.isRepresentable_natCast (by omega :
      milliseconds - 1 < 2 ^ 53))).2 (by rw [hless]; exact h)
    rw [hless] at hrounded
    rw [hends]
    linarith

namespace Sample

/-- Settings for certificates of one second that are replaced at a fixed factor. -/
def hasty (factor : Binary64) : RotationSettings where
  certSeconds := 1
  jitterMin := factor
  jitterMax := factor
  retrySeconds := 10
  organization := []

def usual : Binary64 := .ofDecimal false 7 (-1)

def tiny : Binary64 := .ofDecimal false 1 (-4)

theorem usual_eq : usual = .finite false 6305039478318694 (-53) (by decide) := by
  decide +kernel

end Sample

theorem rotationDeadline_of_check_sample :
    ∃ ca, (Sample.hasty Sample.usual).check Sample.issuedAt = .ok () ∧
      Issuance.issueAuthority (Sample.identity.caConfig ["ops"]) (.rsa Sample.signingKey)
        (Sample.hasty Sample.usual).certDuration Sample.issuedAt = .ok ca ∧
      ca.notBefore < rotationDeadline ca.notBefore ca.notAfter (.atFactor Sample.usual) ∧
      rotationDeadline ca.notBefore ca.notAfter (.atFactor Sample.usual) < ca.notAfter := by
  obtain ⟨ca, -, hca, -⟩ := Sample.exists_issue
  have hcheck : (Sample.hasty Sample.usual).check Sample.issuedAt = .ok () := by decide +kernel
  obtain ⟨-, -, -, hstarts, hends⟩ :=
    @rotationDeadline_of_check _ _ _ _ _ _ Sample.usual hcheck hca (by decide)
      (by decide +kernel) le_rfl le_rfl
  have hvalue : Sample.usual.value = 6305039478318694 * (2 : ℚ) ^ (-53 : ℤ) := by
    rw [Sample.usual_eq, Binary64.value]
    norm_num
  have hlength : ((1000 * (Sample.hasty Sample.usual).certSeconds.toNat : ℕ) : ℚ) = 1000 := by
    norm_cast
  rw [hlength, hvalue] at hstarts hends
  exact ⟨ca, hcheck, hca, hstarts (by norm_num), hends (by norm_num)⟩

/-- Settings that are accepted, and an authority that is to be replaced at the instant of its
issuance. -/
theorem rotationDeadline_eq_notBefore_of_tiny :
    ∃ ca, (Sample.hasty Sample.tiny).check Sample.issuedAt = .ok () ∧
      Issuance.issueAuthority (Sample.identity.caConfig ["ops"]) (.rsa Sample.signingKey)
        (Sample.hasty Sample.tiny).certDuration Sample.issuedAt = .ok ca ∧
      (Sample.hasty Sample.tiny).jitterMin.value ≤ Sample.tiny.value ∧
      Sample.tiny.value ≤ (Sample.hasty Sample.tiny).jitterMax.value ∧
      ¬ca.notBefore < rotationDeadline ca.notBefore ca.notAfter (.atFactor Sample.tiny) := by
  obtain ⟨ca, -, hca, -⟩ := Sample.exists_issue
  obtain ⟨hbefore, stop, hstop, hafter⟩ := Issuance.issueAuthority_validity hca
  have hend : Issuance.endOfValidity? Sample.issuedAt (.ofSeconds 1) = some ⟨6, 700000000⟩ := by
    decide +kernel
  obtain rfl := Option.some.inj (hend.symm.trans hstop)
  refine ⟨ca, by decide +kernel, hca, le_rfl, le_rfl, ?_⟩
  rw [hbefore, hafter]
  decide +kernel

end CertRotation
