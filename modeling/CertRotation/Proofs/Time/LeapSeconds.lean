import CertRotation.Proofs.Time.Nanoseconds
import CertRotation.Proofs.Time.Order

/-!
Sums and differences of instants that may lie in leap seconds. Going forward never leads back, and
going further never leads to an earlier instant. A difference leads from one instant at most to the
other, unless it counts the leap second that the other lies in.
-/

namespace CertRotation.Instant

variable {t s start stop : Instant} {d e : Duration}

theorem plus_of_stays (hleap : t.inLeapSecond = true) (hd : 0 ≤ d.nanoseconds)
    (h : t.nanos + d.nanoseconds < 2000000000) :
    t.plus d = ⟨t.seconds, (t.nanos + d.nanoseconds).toNat⟩ := by
  have hnanos : t.nanos ≥ 1000000000 := of_decide_eq_true hleap
  have hwhole : d.wholeSeconds = 0 := by
    rw [Duration.wholeSeconds, Duration.second, Int.tdiv_eq_ediv_of_nonneg hd]
    omega
  have hfraction : d.fraction = d.nanoseconds := by
    rw [Duration.fraction, Duration.second, Int.tmod_eq_emod_of_nonneg hd]
    omega
  have hstays : ¬(d.nanoseconds > 0 ∧
      (t.nanos : Int) + d.nanoseconds ≥ 2 * Duration.second) := by
    unfold Duration.second
    omega
  rw [plus]
  simp only [hleap, hwhole, hfraction, if_true, gt_iff_lt, Int.lt_irrefl, if_false, false_or]
  exact if_neg hstays

theorem plus_of_leaves (hleap : t.inLeapSecond = true) (hnanos : t.nanos < 2000000000)
    (h : 2000000000 ≤ t.nanos + d.nanoseconds) :
    (t.plus d).IsRegular ∧
      (t.plus d).nanoseconds = t.nanoseconds - 1000000000 + d.nanoseconds := by
  have hstart : t.nanos ≥ 1000000000 := of_decide_eq_true hleap
  have hd : 0 ≤ d.nanoseconds := by omega
  have hleaves : d.wholeSeconds > 0 ∨
      d.fraction > 0 ∧ (t.nanos : Int) + d.fraction ≥ 2 * Duration.second := by
    rw [Duration.wholeSeconds, Duration.fraction, Duration.second, Int.tdiv_eq_ediv_of_nonneg hd,
      Int.tmod_eq_emod_of_nonneg hd]
    omega
  -- The sum is that of the instant a second before, which is regular.
  obtain ⟨before, hseconds, hfraction⟩ : ∃ before : Instant, before.seconds = t.seconds ∧
      (before.nanos : Int) = t.nanos - Duration.second := by
    refine ⟨⟨t.seconds, t.nanos - 1000000000⟩, by dsimp only, ?_⟩
    dsimp only [Duration.second]
    omega
  have hbefore : before.IsRegular := by
    unfold Duration.second at hfraction
    unfold IsRegular
    omega
  have hsame : t.plus d = before.plus d := by
    rw [plus, plus]
    simp only [hleap, inLeapSecond_of_isRegular hbefore, if_true, if_pos hleaves,
      Bool.false_eq_true, if_false, hseconds, hfraction]
  obtain ⟨hregular, hsum⟩ := plus_of_isRegular hbefore d
  rw [hsame]
  refine ⟨hregular, ?_⟩
  rw [hsum, nanoseconds, nanoseconds, hseconds, hfraction]
  unfold Duration.second
  omega

/-- Everything that a sum with a duration forward can be. -/
theorem plus_cases (hnanos : t.nanos < 2000000000) (hd : 0 ≤ d.nanoseconds) :
    (1000000000 ≤ t.nanos ∧ t.nanos + d.nanoseconds < 2000000000 ∧
      (t.plus d).seconds = t.seconds ∧ ((t.plus d).nanos : Int) = t.nanos + d.nanoseconds) ∨
    (1000000000 ≤ t.nanos ∧ 2000000000 ≤ t.nanos + d.nanoseconds ∧ (t.plus d).IsRegular ∧
      (t.plus d).nanoseconds = t.nanoseconds - 1000000000 + d.nanoseconds) ∨
    (t.IsRegular ∧ (t.plus d).IsRegular ∧
      (t.plus d).nanoseconds = t.nanoseconds + d.nanoseconds) := by
  rcases Nat.lt_or_ge t.nanos 1000000000 with hregular | hleap
  · exact .inr (.inr ⟨hregular, plus_of_isRegular hregular d⟩)
  · rcases Int.lt_or_le (t.nanos + d.nanoseconds) 2000000000 with hstays | hleaves
    · rw [plus_of_stays (decide_eq_true hleap) hd hstays]
      exact .inl ⟨hleap, hstays, rfl, Int.toNat_of_nonneg (by omega)⟩
    · exact .inr (.inl ⟨hleap, hleaves, plus_of_leaves (decide_eq_true hleap) hnanos hleaves⟩)

theorem le_plus (hnanos : t.nanos < 2000000000) (hd : 0 ≤ d.nanoseconds) : t ≤ t.plus d := by
  change t.seconds < (t.plus d).seconds ∨
    t.seconds = (t.plus d).seconds ∧ t.nanos ≤ (t.plus d).nanos
  have hcases := plus_cases hnanos hd
  unfold IsRegular nanoseconds Duration.second at hcases
  omega

theorem plus_le_plus (hnanos : t.nanos < 2000000000) (hd : 0 ≤ d.nanoseconds)
    (h : d.nanoseconds ≤ e.nanoseconds) : t.plus d ≤ t.plus e := by
  change (t.plus d).seconds < (t.plus e).seconds ∨
    (t.plus d).seconds = (t.plus e).seconds ∧ (t.plus d).nanos ≤ (t.plus e).nanos
  have hcases := plus_cases hnanos hd
  have hcases' := plus_cases hnanos (Int.le_trans hd h)
  unfold IsRegular nanoseconds Duration.second at hcases hcases'
  omega

theorem plus_zero (hnanos : t.nanos < 2000000000) : t.plus Duration.zero = t := by
  have hcases := @plus_cases t Duration.zero hnanos (Int.le_refl 0)
  have hzero : Duration.zero.nanoseconds = 0 := rfl
  unfold IsRegular nanoseconds Duration.second at hcases
  have hseconds : (t.plus Duration.zero).seconds = t.seconds := by omega
  have hfraction : (t.plus Duration.zero).nanos = t.nanos := by omega
  generalize t.plus Duration.zero = sum at hseconds hfraction
  cases sum
  cases t
  cases hseconds
  cases hfraction
  rfl

/-- The difference from one instant forward to another counts the leap second in which the other
lies: at the time of day of the one it was not over yet. -/
def CountsLeapSecond (start stop : Instant) : Prop :=
  Duration.zero < stop.since start ∧ stop.inLeapSecond = true ∧
    (start.timeOfDay < stop.timeOfDay ∨
      start.timeOfDay = stop.timeOfDay ∧ start.inLeapSecond = false)

/-- A difference, with the leap second that it counts or leaves out. -/
theorem since_cases (start stop : Instant) :
    (start.timeOfDay < stop.timeOfDay ∧ 1000000000 ≤ start.nanos ∧
      (stop.since start).nanoseconds = stop.nanoseconds - start.nanoseconds + 1000000000) ∨
    (stop.timeOfDay < start.timeOfDay ∧ 1000000000 ≤ stop.nanos ∧
      (stop.since start).nanoseconds = stop.nanoseconds - start.nanoseconds - 1000000000) ∨
    ((start.timeOfDay < stop.timeOfDay → start.nanos < 1000000000) ∧
      (stop.timeOfDay < start.timeOfDay → stop.nanos < 1000000000) ∧
      (stop.since start).nanoseconds = stop.nanoseconds - start.nanoseconds) := by
  unfold since inLeapSecond nanoseconds Duration.second
  simp only [gt_iff_lt, ge_iff_le, decide_eq_true_eq]
  split
  · exact .inl ⟨by omega, by omega, by omega⟩
  · split
    · exact .inr (.inl ⟨by omega, by omega, by omega⟩)
    · exact .inr (.inr ⟨by omega, by omega, by omega⟩)

/-- A difference forward leads at most to the later instant, or else past it. -/
theorem plus_since_le_iff (hstart : start.nanos < 2000000000) (hstop : stop.nanos < 2000000000)
    (h : 0 < (stop.since start).nanoseconds) :
    start.plus (stop.since start) ≤ start.later stop ↔ ¬start.CountsLeapSecond stop := by
  have hsum := plus_cases hstart (Int.le_of_lt h)
  have hdifference := since_cases start stop
  have hlater : (start.seconds < stop.seconds ∨
        start.seconds = stop.seconds ∧ start.nanos ≤ stop.nanos) ∧ start.later stop = stop ∨
      ¬(start.seconds < stop.seconds ∨
        start.seconds = stop.seconds ∧ start.nanos ≤ stop.nanos) ∧ start.later stop = start := by
    unfold later
    split
    · exact .inl ⟨by assumption, rfl⟩
    · exact .inr ⟨by assumption, rfl⟩
  have hcounts : start.CountsLeapSecond stop ↔ 1000000000 ≤ stop.nanos ∧
      (start.timeOfDay < stop.timeOfDay ∨
        start.timeOfDay = stop.timeOfDay ∧ start.nanos < 1000000000) := by
    unfold CountsLeapSecond inLeapSecond
    rw [decide_eq_true_eq, decide_eq_false_iff_not, ge_iff_le, ge_iff_le, Nat.not_le]
    exact and_iff_right h
  rw [hcounts]
  change (start.plus (stop.since start)).seconds < (start.later stop).seconds ∨
    (start.plus (stop.since start)).seconds = (start.later stop).seconds ∧
      (start.plus (stop.since start)).nanos ≤ (start.later stop).nanos ↔ _
  unfold IsRegular nanoseconds Duration.second at hsum
  unfold nanoseconds Duration.second timeOfDay secondsPerDay at hdifference
  unfold timeOfDay secondsPerDay
  rcases hlater with ⟨hle, heq⟩ | ⟨hlt, heq⟩
  · rw [heq]
    omega
  · rw [heq]
    omega

theorem seconds_plus_ofSeconds {s : Nat} (h : t.nanos < 2000000000) (hs : 0 < s) :
    (t.plus (.ofSeconds s)).seconds = t.seconds + s := by
  have hwhole : (Duration.ofSeconds s).wholeSeconds = s := Int.mul_tdiv_cancel _ (by decide)
  have hfraction : (Duration.ofSeconds s).fraction = 0 := Int.mul_tmod_left _ _
  have hpositive : (s : Int) > 0 := by omega
  rw [plus]
  simp only [hwhole, hfraction, hpositive, true_or, if_true, Duration.second]
  cases hleap : t.inLeapSecond with
  | true =>
      have hlarge : t.nanos ≥ 1000000000 := of_decide_eq_true hleap
      simp only [if_true]
      omega
  | false =>
      have hsmall : ¬t.nanos ≥ 1000000000 := of_decide_eq_false hleap
      simp only [Bool.false_eq_true, if_false]
      omega

theorem inRange_since (ht : t.IsReading) (hs : s.IsReading) : (t.since s).inRange = true := by
  obtain ⟨hfrom, hto⟩ := inRange_iff.mp ht.inRange
  obtain ⟨hfrom', hto'⟩ := inRange_iff.mp hs.inRange
  have hfraction := ht.fraction
  have hfraction' := hs.fraction
  have hdifference := since_cases s t
  rw [first_seconds] at hfrom hfrom'
  rw [last_seconds] at hto hto'
  unfold nanoseconds Duration.second at hdifference
  have hmin : -9223372036854775807000000 ≤ (t.since s).nanoseconds := by omega
  have hmax : (t.since s).nanoseconds ≤ 9223372036854775807000000 := by omega
  rw [Duration.inRange, Bool.and_eq_true]
  exact ⟨decide_eq_true hmin, decide_eq_true hmax⟩

theorem plus_of_negative (hleap : t.inLeapSecond = true) (hd : d.nanoseconds < 0)
    (h : -1000000000 < d.nanoseconds) :
    t.plus d = ⟨t.seconds, (t.nanos + d.nanoseconds).toNat⟩ := by
  have hwhole : d.wholeSeconds = 0 := by
    rw [Duration.wholeSeconds, ← Int.neg_neg d.nanoseconds, Int.neg_tdiv,
      Int.tdiv_eq_zero_of_lt (by omega) (by unfold Duration.second; omega), Int.neg_zero]
  have hfraction : d.fraction = d.nanoseconds := by
    have hsplit := Int.mul_tdiv_add_tmod d.nanoseconds Duration.second
    rwa [← Duration.wholeSeconds, hwhole, Int.mul_zero, Int.zero_add] at hsplit
  have hback : ¬(d.nanoseconds > 0 ∧
      (t.nanos : Int) + d.nanoseconds ≥ 2 * Duration.second) := by
    omega
  rw [plus]
  simp only [hleap, hwhole, hfraction, if_true, gt_iff_lt, Int.lt_irrefl, if_false, false_or]
  exact if_neg hback

/-- A difference leads exactly from one instant to a later one: neither is in a leap second, or the
first is, and the other comes at a later time of day or in the same leap second. -/
def LeadsExactly (start stop : Instant) : Prop :=
  stop.IsRegular ∧ (start.IsRegular ∨ start.timeOfDay < stop.timeOfDay) ∨
    start.inLeapSecond = true ∧ start.seconds = stop.seconds

theorem since_negative (hstart : start.nanos < 2000000000) (h : start < stop)
    (hnegative : (stop.since start).nanoseconds < 0) :
    1000000000 ≤ start.nanos ∧ -1000000000 < (stop.since start).nanoseconds ∧
      start.seconds < stop.seconds ∧
      (stop.IsRegular → stop.timeOfDay ≤ start.timeOfDay) := by
  have hdifference := since_cases start stop
  have horder : start.seconds < stop.seconds ∨
    start.seconds = stop.seconds ∧ start.nanos < stop.nanos := h
  unfold nanoseconds Duration.second timeOfDay secondsPerDay at hdifference
  unfold IsRegular timeOfDay secondsPerDay
  omega

theorem plus_since_eq_iff (hstart : start.nanos < 2000000000) (hstop : stop.nanos < 2000000000)
    (h : start < stop) :
    start.plus (stop.since start) = stop ↔ start.LeadsExactly stop := by
  have horder : start.seconds < stop.seconds ∨
    start.seconds = stop.seconds ∧ start.nanos < stop.nanos := h
  have hexactly : start.LeadsExactly stop ↔
      stop.nanos < 1000000000 ∧
          (start.nanos < 1000000000 ∨ start.timeOfDay < stop.timeOfDay) ∨
        1000000000 ≤ start.nanos ∧ start.seconds = stop.seconds := by
    unfold LeadsExactly IsRegular inLeapSecond
    rw [decide_eq_true_eq]
  rw [hexactly, eq_iff]
  rcases Int.lt_or_le (stop.since start).nanoseconds 0 with hnegative | hforward
  · obtain ⟨hleap, hshort, hseconds, htime⟩ := since_negative hstart h hnegative
    rw [plus_of_negative (decide_eq_true hleap) hnegative hshort]
    dsimp only
    unfold IsRegular at htime
    omega
  · have hsum := plus_cases hstart hforward
    have hdifference := since_cases start stop
    unfold IsRegular nanoseconds Duration.second at hsum
    unfold nanoseconds Duration.second timeOfDay secondsPerDay at hdifference
    unfold timeOfDay secondsPerDay
    omega

theorem plus_of_since_negative (hstart : start.nanos < 2000000000) (h : start < stop)
    (hnegative : (stop.since start).nanoseconds < 0) :
    (start.plus (stop.since start)).seconds = start.seconds ∧
      start.plus (stop.since start) < start := by
  obtain ⟨hleap, hshort, -, -⟩ := since_negative hstart h hnegative
  rw [plus_of_negative (decide_eq_true hleap) hnegative hshort]
  refine ⟨rfl, .inr ⟨rfl, ?_⟩⟩
  dsimp only
  omega

theorem plus_since_le_later_iff (hstart : start.nanos < 2000000000)
    (hstop : stop.nanos < 2000000000) (h : start < stop) :
    start.plus (stop.since start) ≤ stop ↔ ¬start.CountsLeapSecond stop := by
  rcases Int.lt_or_le 0 (stop.since start).nanoseconds with hforward | hnot
  · have hlater : start.later stop = stop := if_pos (le_of_lt h)
    have hsum := plus_since_le_iff hstart hstop hforward
    rwa [hlater] at hsum
  · have hcounts : ¬start.CountsLeapSecond stop := fun hcounts =>
      absurd hcounts.1 (Int.not_lt.mpr hnot)
    refine ⟨fun _ => hcounts, fun _ => ?_⟩
    rcases Int.lt_or_eq_of_le hnot with hnegative | hzero
    · exact le_trans (le_of_lt (plus_of_since_negative hstart h hnegative).2) (le_of_lt h)
    · rw [Duration.eq_of_nanoseconds_eq (e := Duration.zero) hzero, plus_zero hstart]
      exact le_of_lt h

theorem add?_since (hstart : start.IsReading) (hstop : stop.IsReading) (h : start < stop)
    (hle : start.plus (stop.since start) ≤ stop) :
    start.add? (stop.since start) = some (start.plus (stop.since start)) := by
  refine add?_eq_some_iff.mpr ⟨rfl, ?_⟩
  rcases Int.lt_or_le (stop.since start).nanoseconds 0 with hnegative | hforward
  · have hsame := (plus_of_since_negative hstart.fraction h hnegative).1
    rw [inRange_iff, hsame, ← inRange_iff]
    exact hstart.inRange
  · have hlater : start.later stop = stop := if_pos (le_of_lt h)
    exact inRange_of_le_later hstart.inRange hstop.inRange (le_plus hstart.fraction hforward)
      (hlater.symm ▸ hle)

end CertRotation.Instant
