import CertRotation.Time.Instant

namespace CertRotation

namespace Duration

variable {d e high : Duration}

theorem eq_of_nanoseconds_eq (h : d.nanoseconds = e.nanoseconds) : d = e := congrArg Duration.mk h

theorem not_lt_of_le (h : d ≤ e) : ¬e < d := Int.not_lt.mpr h

theorem clamp_bounds (h : 0 ≤ high.nanoseconds) :
    0 ≤ (d.clamp zero high).nanoseconds ∧ (d.clamp zero high).nanoseconds ≤ high.nanoseconds := by
  unfold clamp
  split
  · exact ⟨Int.le_refl 0, h⟩
  · rename_i hlow
    split
    · exact ⟨h, Int.le_refl _⟩
    · rename_i hhigh
      exact ⟨Int.not_lt.mp hlow, Int.not_lt.mp hhigh⟩

theorem clamp_self (h : 0 ≤ high.nanoseconds) : high.clamp zero high = high := by
  have hlow : ¬high < zero := Int.not_lt.mpr h
  have hhigh : ¬high < high := Int.lt_irrefl high.nanoseconds
  rw [clamp, if_neg hlow, if_neg hhigh]

theorem clamp_of_inside (hlow : zero ≤ d) (hhigh : d ≤ high) : d.clamp zero high = d := by
  rw [clamp, if_neg (not_lt_of_le hlow), if_neg (not_lt_of_le hhigh)]

theorem clamp_of_negative (h : d < zero) : d.clamp zero high = zero := if_pos h

theorem clamp_of_beyond (hhigh : zero ≤ high) (h : high < d) : d.clamp zero high = high := by
  have hlow : zero ≤ d := Int.le_of_lt (Int.lt_of_le_of_lt hhigh h)
  rw [clamp, if_neg (not_lt_of_le hlow), if_pos h]

theorem clamp_zero (d : Duration) : d.clamp zero zero = zero := by
  obtain ⟨hlow, hhigh⟩ := @clamp_bounds d zero (Int.le_refl 0)
  exact eq_of_nanoseconds_eq (Int.le_antisymm hhigh hlow)

end Duration

namespace Instant

variable {t s u : Instant} {d : Duration}

theorem eq_iff : t = s ↔ t.seconds = s.seconds ∧ t.nanos = s.nanos := by
  cases t
  cases s
  rw [mk.injEq]

theorem not_lt_iff : ¬t < s ↔ s ≤ t := by
  change ¬(t.seconds < s.seconds ∨ t.seconds = s.seconds ∧ t.nanos < s.nanos) ↔
    s.seconds < t.seconds ∨ s.seconds = t.seconds ∧ s.nanos ≤ t.nanos
  omega

theorem le_trans (h : t ≤ s) (h' : s ≤ u) : t ≤ u := by
  change t.seconds < s.seconds ∨ t.seconds = s.seconds ∧ t.nanos ≤ s.nanos at h
  change s.seconds < u.seconds ∨ s.seconds = u.seconds ∧ s.nanos ≤ u.nanos at h'
  change t.seconds < u.seconds ∨ t.seconds = u.seconds ∧ t.nanos ≤ u.nanos
  omega

theorem le_iff_lt_or_eq : t ≤ s ↔ t < s ∨ t = s := by
  rw [eq_iff]
  change t.seconds < s.seconds ∨ t.seconds = s.seconds ∧ t.nanos ≤ s.nanos ↔
    (t.seconds < s.seconds ∨ t.seconds = s.seconds ∧ t.nanos < s.nanos) ∨ _
  omega

theorem le_of_lt (h : t < s) : t ≤ s := le_iff_lt_or_eq.mpr (.inl h)

theorem seconds_le_of_le (h : t ≤ s) : t.seconds ≤ s.seconds := by
  rcases h with hlt | ⟨heq, -⟩
  · exact Int.le_of_lt hlt
  · exact Int.le_of_eq heq

def later (t s : Instant) : Instant := if t ≤ s then s else t

theorem le_later_left (t s : Instant) : t ≤ t.later s := by
  unfold later
  split
  · assumption
  · exact .inr ⟨rfl, Nat.le_refl _⟩

theorem later_cases (t s : Instant) : t.later s = t ∨ t.later s = s := by
  unfold later
  split
  · exact .inr rfl
  · exact .inl rfl

/-- What a clock can show: a time of the calendar's range, perhaps in a leap second. -/
structure IsReading (t : Instant) : Prop where
  inRange : t.inRange = true
  fraction : t.nanos < 2000000000

theorem inRange_iff :
    t.inRange = true ↔ first.seconds ≤ t.seconds ∧ t.seconds ≤ last.seconds := by
  rw [inRange, Bool.and_eq_true, decide_eq_true_eq, decide_eq_true_eq]

theorem first_seconds : first.seconds = -8334601228800 := by decide

theorem last_seconds : last.seconds = 8210266876799 := by decide

theorem add?_eq_some_iff : t.add? d = some s ↔ t.plus d = s ∧ s.inRange = true := by
  unfold add?
  simp only
  split
  · rename_i h
    rw [Option.some.injEq]
    constructor
    · rintro rfl
      exact ⟨rfl, h⟩
    · exact And.left
  · rename_i h
    constructor
    · intro hnone
      cases hnone
    · rintro ⟨rfl, hrange⟩
      exact absurd hrange h

theorem inRange_of_le_later {mid : Instant} (ht : t.inRange = true) (hs : s.inRange = true)
    (hfrom : t ≤ mid) (hto : mid ≤ t.later s) : mid.inRange = true := by
  rw [inRange_iff] at ht hs ⊢
  have hstart := seconds_le_of_le hfrom
  have hstop := seconds_le_of_le hto
  rcases later_cases t s with heq | heq
  · rw [heq] at hstop
    exact ⟨Int.le_trans ht.1 hstart, Int.le_trans hstop ht.2⟩
  · rw [heq] at hstop
    exact ⟨Int.le_trans ht.1 hstart, Int.le_trans hstop hs.2⟩

end Instant

end CertRotation
