import CertRotation.Proofs.Time.Instant

namespace CertRotation.Instant

/-- The nanoseconds since the start of 1970. -/
def nanoseconds (t : Instant) : Int := t.seconds * Duration.second + t.nanos

/-- An instant that is not inside a leap second. -/
def IsRegular (t : Instant) : Prop := t.nanos < 1000000000

/-- An instant without a fraction. -/
def IsWholeSecond (t : Instant) : Prop := t.nanos = 0

variable {t s : Instant}

theorem inLeapSecond_of_isRegular (h : t.IsRegular) : t.inLeapSecond = false := by
  rw [inLeapSecond, decide_eq_false_iff_not, ge_iff_le, Nat.not_le]
  exact h

theorem IsWholeSecond.isRegular (h : t.IsWholeSecond) : t.IsRegular := by
  rw [IsRegular, h]
  decide

theorem lt_iff_nanoseconds (ht : t.IsRegular) (hs : s.IsRegular) :
    t < s ↔ t.nanoseconds < s.nanoseconds := by
  change t.seconds < s.seconds ∨ t.seconds = s.seconds ∧ t.nanos < s.nanos ↔ _
  unfold IsRegular at ht hs
  unfold nanoseconds Duration.second
  omega

theorem le_iff_nanoseconds (ht : t.IsRegular) (hs : s.IsRegular) :
    t ≤ s ↔ t.nanoseconds ≤ s.nanoseconds := by
  change t.seconds < s.seconds ∨ t.seconds = s.seconds ∧ t.nanos ≤ s.nanos ↔ _
  unfold IsRegular at ht hs
  unfold nanoseconds Duration.second
  omega

theorem eq_of_nanoseconds_eq (ht : t.IsRegular) (hs : s.IsRegular)
    (h : t.nanoseconds = s.nanoseconds) : t = s := by
  unfold IsRegular at ht hs
  unfold nanoseconds Duration.second at h
  have hseconds : t.seconds = s.seconds := by omega
  have hnanos : t.nanos = s.nanos := by omega
  cases t
  cases s
  cases hseconds
  cases hnanos
  rfl

theorem since_eq_sub (ht : t.IsRegular) (hs : s.IsRegular) :
    t.since s = ⟨t.nanoseconds - s.nanoseconds⟩ := by
  simp only [since, inLeapSecond_of_isRegular ht, inLeapSecond_of_isRegular hs, nanoseconds,
    Bool.false_eq_true, and_false, if_false, Int.add_zero, Int.sub_mul]
  congr 1
  omega

theorem plus_of_isRegular (ht : t.IsRegular) (d : Duration) :
    (t.plus d).IsRegular ∧ (t.plus d).nanoseconds = t.nanoseconds + d.nanoseconds := by
  have hsplit : d.wholeSeconds * Duration.second + d.fraction = d.nanoseconds :=
    Int.tdiv_mul_add_tmod d.nanoseconds Duration.second
  have hremainder : 0 ≤ ((t.nanos : Int) + d.fraction) % Duration.second :=
    Int.emod_nonneg _ (by decide)
  have hbound : ((t.nanos : Int) + d.fraction) % Duration.second < Duration.second :=
    Int.emod_lt_of_pos _ (by decide)
  have hwhole := Int.mul_ediv_add_emod ((t.nanos : Int) + d.fraction) Duration.second
  simp only [plus, inLeapSecond_of_isRegular ht, Bool.false_eq_true, if_false, IsRegular,
    nanoseconds]
  generalize ((t.nanos : Int) + d.fraction) % Duration.second = remainder at *
  generalize ((t.nanos : Int) + d.fraction) / Duration.second = carry at *
  unfold Duration.second at *
  constructor
  · omega
  · omega

end CertRotation.Instant
