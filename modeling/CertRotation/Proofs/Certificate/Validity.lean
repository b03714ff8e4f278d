import CertRotation.Proofs.Rotation.WholeCalendar
import CertRotation.Proofs.Trust.Verdict

namespace CertRotation

namespace Certificate

variable {cert : Certificate} {t : Instant} {d : Duration}

theorem isExpiredAt_eq_false_iff : cert.isExpiredAt t = false ↔ t ≤ cert.notAfter := by
  rw [isExpiredAt, decide_eq_false_iff_not, Instant.not_lt_iff]

theorem isNotYetValidAt_eq_false_iff :
    cert.isNotYetValidAt t = false ↔ cert.notBefore ≤ t := by
  rw [isNotYetValidAt, decide_eq_false_iff_not, Instant.not_lt_iff]

theorem count_verdicts (h : cert.notBefore ≤ cert.notAfter) :
    [cert.isExpiredAt t, cert.isNotYetValidAt t, cert.isValidAt t].count true = 1 := by
  rw [isValidAt]
  cases hexpired : cert.isExpiredAt t with
  | true =>
      have hafter : cert.notAfter < t := of_decide_eq_true hexpired
      have hbegun : cert.isNotYetValidAt t = false :=
        isNotYetValidAt_eq_false_iff.mpr (Instant.le_trans h (Instant.le_of_lt hafter))
      rw [hbegun]
      rfl
  | false =>
      cases cert.isNotYetValidAt t with
      | true => rfl
      | false => rfl

theorem remainingAt_eq_none_iff : cert.remainingAt t = none ↔ cert.notAfter ≤ t := by
  rw [remainingAt, ite_eq_right_iff, ← Instant.not_lt_iff]
  simp

theorem remainingAt_eq_some_iff :
    cert.remainingAt t = some d ↔ t < cert.notAfter ∧ d = cert.notAfter.since t := by
  rw [remainingAt]
  split
  · rename_i h
    simp [h, eq_comm]
  · rename_i h
    simp [h]

/-- From an instant on, for the time that is left, a certificate does not expire, unless that time
counts the leap second that the end of the validity lies in. -/
theorem isExpiredAt_until_iff (ht : t.nanos < 2000000000) (hstop : cert.notAfter.nanos < 2000000000)
    (h : t < cert.notAfter) :
    (∀ u, t ≤ u → u ≤ t.plus (cert.notAfter.since t) → cert.isExpiredAt u = false) ↔
      ¬t.CountsLeapSecond cert.notAfter := by
  rw [← Instant.plus_since_le_later_iff ht hstop h]
  simp only [isExpiredAt_eq_false_iff]
  constructor
  · intro hunexpired
    rcases Int.lt_or_le (cert.notAfter.since t).nanoseconds 0 with hnegative | hforward
    · have hback := (Instant.plus_of_since_negative ht h hnegative).2
      exact Instant.le_trans (Instant.le_of_lt hback) (Instant.le_of_lt h)
    · exact hunexpired _ (Instant.le_plus ht hforward) (.inr ⟨rfl, Nat.le_refl _⟩)
  · intro hle u _ hu
    exact Instant.le_trans hu hle

/-- What a record says of an instant. It is valid from the start to the end of the validity, both
included, and otherwise either expired or not yet valid. Time is left until the end is reached; none
is left at the end itself, when the certificate has not expired yet. The time that is left leads
exactly to the end, and the certificate does not expire meanwhile, as far as leap seconds let it. -/
theorem remainingAt_of_readings (ht : t.IsReading) (hstop : cert.notAfter.IsReading) :
    (cert.isValidAt t = true ↔ cert.notBefore ≤ t ∧ t ≤ cert.notAfter) ∧
    (cert.notBefore ≤ cert.notAfter →
      [cert.isExpiredAt t, cert.isNotYetValidAt t, cert.isValidAt t].count true = 1) ∧
    (cert.remainingAt t = none ↔ cert.isExpiredAt t = true ∨ t = cert.notAfter) ∧
    ∀ d, cert.remainingAt t = some d →
      d.inRange = true ∧
      (t.add? d = some cert.notAfter ↔ t.LeadsExactly cert.notAfter) ∧
      ((∀ u, t ≤ u → u ≤ t.plus d → cert.isExpiredAt u = false) ↔
        ¬t.CountsLeapSecond cert.notAfter) ∧
      (¬t.CountsLeapSecond cert.notAfter → t.add? d = some (t.plus d)) ∧
      (t.IsRegular → cert.notAfter.IsRegular →
        Duration.zero < d ∧ t.add? d = some cert.notAfter ∧
          ∀ u, t ≤ u → u ≤ t.plus d → cert.isExpiredAt u = false) := by
  refine ⟨isValidAt_iff, count_verdicts, ?_, ?_⟩
  · rw [remainingAt_eq_none_iff, Instant.le_iff_lt_or_eq, isExpiredAt, decide_eq_true_eq,
      @eq_comm _ cert.notAfter]
  · intro d hd
    obtain ⟨hbefore, rfl⟩ := remainingAt_eq_some_iff.mp hd
    have hlater := Instant.plus_since_le_later_iff ht.fraction hstop.fraction hbefore
    have hexactly : t.add? (cert.notAfter.since t) = some cert.notAfter ↔
        t.LeadsExactly cert.notAfter := by
      rw [Instant.add?_eq_some_iff, and_iff_left hstop.inRange,
        Instant.plus_since_eq_iff ht.fraction hstop.fraction hbefore]
    have hunexpired := isExpiredAt_until_iff ht.fraction hstop.fraction hbefore
    refine ⟨Instant.inRange_since hstop ht, hexactly, hunexpired, ?_, ?_⟩
    · intro hcounts
      exact Instant.add?_since ht hstop hbefore (hlater.mpr hcounts)
    · intro hregular hregular'
      refine ⟨?_, hexactly.mpr (.inl ⟨hregular', .inl hregular⟩),
        hunexpired.mpr (not_countsLeapSecond hregular')⟩
      rw [Instant.since_eq_sub hregular' hregular]
      exact Int.sub_pos_of_lt ((Instant.lt_iff_nanoseconds hregular hregular').mp hbefore)

end Certificate

namespace Sample

def tenSeconds : Certificate := .ofWindow [] ⟨0, 0⟩ ⟨10, 0⟩ ⟨"a", []⟩ ⟨"a", []⟩

end Sample

namespace Certificate

/-- From within a leap second to the end. -/
theorem remainingAt_of_readings_sample :
    (⟨5, 1500000000⟩ : Instant).IsReading ∧ Sample.tenSeconds.notAfter.IsReading ∧
      [Sample.tenSeconds.isExpiredAt ⟨5, 1500000000⟩,
        Sample.tenSeconds.isNotYetValidAt ⟨5, 1500000000⟩,
        Sample.tenSeconds.isValidAt ⟨5, 1500000000⟩].count true = 1 ∧
      Sample.tenSeconds.remainingAt ⟨5, 1500000000⟩ = some ⟨4500000000⟩ ∧
      (⟨5, 1500000000⟩ : Instant).add? ⟨4500000000⟩ = some Sample.tenSeconds.notAfter := by
  have ht : (⟨5, 1500000000⟩ : Instant).IsReading := ⟨by decide, by decide⟩
  have hstop : Sample.tenSeconds.notAfter.IsReading := ⟨by decide, by decide⟩
  have hleads : Instant.LeadsExactly ⟨5, 1500000000⟩ Sample.tenSeconds.notAfter := by
    unfold Instant.LeadsExactly Instant.IsRegular
    decide
  have hleft : Sample.tenSeconds.remainingAt ⟨5, 1500000000⟩ = some ⟨4500000000⟩ := by decide
  obtain ⟨-, hcount, -, hremaining⟩ := remainingAt_of_readings ht hstop
  obtain ⟨-, hexactly, -⟩ := hremaining _ hleft
  exact ⟨ht, hstop, hcount (by decide), hleft, hexactly.mpr hleads⟩

/-- At the end of its validity a certificate is valid and has not expired, and no time is left. From
a leap second to the midnight behind it, the time that is left is negative; to a leap second, it
leads past the end. -/
theorem remainingAt_ne_of_end :
    Sample.tenSeconds.remainingAt Sample.tenSeconds.notAfter = none ∧
      Sample.tenSeconds.isExpiredAt Sample.tenSeconds.notAfter = false ∧
      Sample.tenSeconds.isValidAt Sample.tenSeconds.notAfter = true ∧
      (ofWindow [] ⟨0, 0⟩ ⟨86400, 0⟩ ⟨"a", []⟩ ⟨"a", []⟩).remainingAt ⟨86399, 1500000000⟩ =
        some ⟨-500000000⟩ ∧
      (⟨86399, 1500000000⟩ : Instant).add? ⟨-500000000⟩ ≠ some ⟨86400, 0⟩ ∧
      (ofWindow [] ⟨0, 0⟩ ⟨59, 1500000000⟩ ⟨"a", []⟩ ⟨"a", []⟩).remainingAt ⟨58, 0⟩ =
        some ⟨2500000000⟩ ∧
      (⟨58, 0⟩ : Instant).add? ⟨2500000000⟩ = some ⟨60, 500000000⟩ ∧
      (⟨59, 1500000000⟩ : Instant) < ⟨60, 500000000⟩ := by
  refine ⟨?_, ?_, ?_, ?_, ?_, ?_, ?_, ?_⟩
  all_goals decide

end Certificate

end CertRotation
