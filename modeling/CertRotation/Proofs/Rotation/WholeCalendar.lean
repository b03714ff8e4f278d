import CertRotation.Proofs.Rotation.Deadline
import CertRotation.Proofs.Time.LeapSeconds

namespace CertRotation

section Deadline

variable {start stop start' stop' : Instant} {jitter : Jitter} {delta : Duration}

theorem rotationDeadline_eq (start stop : Instant) (jitter : Jitter) :
    rotationDeadline start stop jitter = start.plus
      ((jitter (validityWindow start stop)).clamp Duration.zero (validityWindow start stop)) := rfl

theorem validityWindow_of_pos (h : 0 < (stop.since start).nanoseconds) :
    validityWindow start stop = stop.since start :=
  if_neg (Int.not_lt.mpr (Int.le_of_lt h))

theorem validityWindow_of_not_pos (h : ¬0 < (stop.since start).nanoseconds) :
    validityWindow start stop = Duration.zero := by
  rw [validityWindow]
  split
  · rfl
  · rename_i hnonneg
    exact Duration.eq_of_nanoseconds_eq
      (Int.le_antisymm (Int.not_lt.mp h) (Int.not_lt.mp hnonneg))

theorem le_rotationDeadline (hstart : start.nanos < 2000000000) (stop : Instant)
    (jitter : Jitter) : start ≤ rotationDeadline start stop jitter :=
  Instant.le_plus hstart (Duration.clamp_bounds (validityWindow_nonneg start stop)).1

theorem rotationDeadline_le_whole (hstart : start.nanos < 2000000000) (stop : Instant)
    (jitter : Jitter) : rotationDeadline start stop jitter ≤ rotationDeadline start stop id := by
  have hwindow := validityWindow_nonneg start stop
  obtain ⟨hlow, hhigh⟩ := @Duration.clamp_bounds (jitter (validityWindow start stop)) _ hwindow
  rw [rotationDeadline_eq, rotationDeadline_eq, id, Duration.clamp_self hwindow]
  exact Instant.plus_le_plus hstart hlow hhigh

/-- Deadlines keep to the later end, unless the length counts a leap second at the end. -/
theorem rotationDeadline_le_later_iff (hstart : start.nanos < 2000000000)
    (hstop : stop.nanos < 2000000000) :
    (∀ jitter, rotationDeadline start stop jitter ≤ start.later stop) ↔
      ¬start.CountsLeapSecond stop := by
  have hwhole : (∀ jitter, rotationDeadline start stop jitter ≤ start.later stop) ↔
      rotationDeadline start stop id ≤ start.later stop := by
    constructor
    · intro h
      exact h id
    · intro h jitter
      exact Instant.le_trans (rotationDeadline_le_whole hstart stop jitter) h
  rw [hwhole, rotationDeadline_eq, id, Duration.clamp_self (validityWindow_nonneg start stop)]
  by_cases hlength : 0 < (stop.since start).nanoseconds
  · rw [validityWindow_of_pos hlength, Instant.plus_since_le_iff hstart hstop hlength]
  · rw [validityWindow_of_not_pos hlength, Instant.plus_zero hstart]
    constructor
    · rintro - ⟨hpositive, -⟩
      exact hlength hpositive
    · intro _
      exact Instant.le_later_left start stop

theorem add?_rotationDeadline (hstart : start.IsReading) (hstop : stop.IsReading)
    (h : ¬start.CountsLeapSecond stop) (jitter : Jitter) :
    start.add? ((jitter (validityWindow start stop)).clamp Duration.zero
      (validityWindow start stop)) = some (rotationDeadline start stop jitter) := by
  refine Instant.add?_eq_some_iff.mpr ⟨rfl, ?_⟩
  exact Instant.inRange_of_le_later hstart.inRange hstop.inRange
    (le_rotationDeadline hstart.fraction stop jitter)
    ((rotationDeadline_le_later_iff hstart.fraction hstop.fraction).mpr h jitter)

theorem not_countsLeapSecond (hstop : stop.IsRegular) : ¬start.CountsLeapSecond stop := by
  rintro ⟨-, hleap, -⟩
  rw [Instant.inLeapSecond_of_isRegular hstop] at hleap
  cases hleap

theorem validityWindow_nanoseconds (hstart : start.IsRegular) (hstop : stop.IsRegular) :
    (validityWindow start stop).nanoseconds = max (stop.nanoseconds - start.nanoseconds) 0 := by
  by_cases hlength : 0 < (stop.since start).nanoseconds
  · rw [validityWindow_of_pos hlength]
    rw [Instant.since_eq_sub hstop hstart] at hlength ⊢
    exact (Int.max_eq_left (Int.le_of_lt hlength)).symm
  · rw [validityWindow_of_not_pos hlength]
    rw [Instant.since_eq_sub hstop hstart] at hlength
    exact (Int.max_eq_right (Int.not_lt.mp hlength)).symm

/-- Where a deadline between two instants lies. -/
structure KeepsToValidity (start stop : Instant) (jitter : Jitter) : Prop where
  /-- Jitter is given the length of the validity, or none. -/
  length : (validityWindow start stop).nanoseconds = max (stop.nanoseconds - start.nanoseconds) 0
  /-- The sum is in the calendar's range. -/
  sum : start.add? ((jitter (validityWindow start stop)).clamp Duration.zero
    (validityWindow start stop)) = some (rotationDeadline start stop jitter)
  starts : start ≤ rotationDeadline start stop jitter
  ends : rotationDeadline start stop jitter ≤ start.later stop
  /-- An offset into the validity is taken as it is. -/
  inside : Duration.zero ≤ jitter (validityWindow start stop) →
    jitter (validityWindow start stop) ≤ validityWindow start stop →
      start.add? (jitter (validityWindow start stop)) = some (rotationDeadline start stop jitter)
  /-- A longer one leads to the end. -/
  beyond : start ≤ stop → validityWindow start stop < jitter (validityWindow start stop) →
    rotationDeadline start stop jitter = stop
  /-- A negative one, or one into no validity, leads to the start. -/
  before : jitter (validityWindow start stop) < Duration.zero ∨ stop ≤ start →
    rotationDeadline start stop jitter = start
  /-- A deadline moves with the validity. -/
  shift : ∀ delta start' stop', start.add? delta = some start' → stop.add? delta = some stop' →
    (rotationDeadline start stop jitter).add? delta = some (rotationDeadline start' stop' jitter)

theorem rotationDeadline_of_beyond (hstart : start.IsRegular) (hstop : stop.IsRegular)
    (hle : start ≤ stop)
    (h : validityWindow start stop < jitter (validityWindow start stop)) :
    rotationDeadline start stop jitter = stop := by
  have hwindow := validityWindow_nonneg start stop
  calc
    _ = start.plus (validityWindow start stop) := by
      rw [rotationDeadline_eq, Duration.clamp_of_beyond hwindow h]
    _ = rotationDeadline start stop id := by
      rw [rotationDeadline_eq, id, Duration.clamp_self hwindow]
    _ = stop := rotationDeadline_whole hstart hstop hle

theorem rotationDeadline_of_before (hstart : start.IsRegular) (hstop : stop.IsRegular)
    (h : jitter (validityWindow start stop) < Duration.zero ∨ stop ≤ start) :
    rotationDeadline start stop jitter = start := by
  have hfraction : start.nanos < 2000000000 := Nat.lt_trans hstart (by decide)
  rw [rotationDeadline_eq]
  rcases h with hnegative | hreversed
  · rw [Duration.clamp_of_negative hnegative, Instant.plus_zero hfraction]
  · have hlength : ¬0 < (stop.since start).nanoseconds := by
      rw [Instant.since_eq_sub hstop hstart]
      exact Int.not_lt.mpr
        (Int.sub_nonpos_of_le ((Instant.le_iff_nanoseconds hstop hstart).mp hreversed))
    rw [validityWindow_of_not_pos hlength, Duration.clamp_zero, Instant.plus_zero hfraction]

theorem isReading_of_add? (hstart : start.IsRegular) (h : start.add? delta = some start') :
    start'.IsReading ∧ start'.IsRegular ∧
      start'.nanoseconds = start.nanoseconds + delta.nanoseconds := by
  obtain ⟨rfl, hrange⟩ := Instant.add?_eq_some_iff.mp h
  obtain ⟨hregular, hsum⟩ := Instant.plus_of_isRegular hstart delta
  exact ⟨⟨hrange, Nat.lt_trans hregular (by decide)⟩, hregular, hsum⟩

theorem add?_rotationDeadline_of_add? (hstart : start.IsRegular) (hstop : stop.IsRegular)
    (hfrom : start.add? delta = some start') (hto : stop.add? delta = some stop') :
    (rotationDeadline start stop jitter).add? delta =
      some (rotationDeadline start' stop' jitter) := by
  obtain ⟨hreading, hregular, hmoved⟩ := isReading_of_add? hstart hfrom
  obtain ⟨hreading', hregular', hmoved'⟩ := isReading_of_add? hstop hto
  have hwindow : validityWindow start' stop' = validityWindow start stop := by
    apply Duration.eq_of_nanoseconds_eq
    rw [validityWindow_nanoseconds hregular hregular', validityWindow_nanoseconds hstart hstop,
      hmoved, hmoved', Int.add_sub_add_right]
  obtain ⟨-, hrange⟩ := Instant.add?_eq_some_iff.mp
    (add?_rotationDeadline hreading hreading' (not_countsLeapSecond hregular') jitter)
  obtain ⟨hsumRegular, hsum⟩ := @rotationDeadline_nanoseconds start stop hstart jitter
  obtain ⟨hsumRegular', hsum'⟩ := @rotationDeadline_nanoseconds start' stop' hregular jitter
  obtain ⟨hlaterRegular, hlater⟩ := Instant.plus_of_isRegular hsumRegular delta
  refine Instant.add?_eq_some_iff.mpr
    ⟨Instant.eq_of_nanoseconds_eq hlaterRegular hsumRegular' ?_, hrange⟩
  rw [hlater, hsum, hsum', hwindow, hmoved, Int.add_right_comm]

/-- The deadline of any two instants. Their difference is a duration, the one question is for an
offset into it, and the deadline never precedes the start. It keeps to the later end for every
offset, with a sum in the calendar's range, exactly if the length does not count a leap second at
the end. If neither end is in a leap second, it lies where the offset says, cut to the validity, and
moves with the two ends. -/
theorem rotationDeadline_of_readings (hstart : start.IsReading) (hstop : stop.IsReading) :
    (stop.since start).inRange = true ∧ Duration.zero ≤ validityWindow start stop ∧
    (∀ ca : Certificate, ca.notBefore = start → ca.notAfter = stop → ∀ asked deadline,
      (RotationManager.deadlineOf ca).Yields asked deadline ↔
        ∃ offset, asked = [⟨.jitter (validityWindow start stop), offset⟩] ∧
          deadline = rotationDeadline start stop fun _ => offset) ∧
    (∀ jitter, start ≤ rotationDeadline start stop jitter) ∧
    ((∀ jitter, rotationDeadline start stop jitter ≤ start.later stop ∧
        start.add? ((jitter (validityWindow start stop)).clamp Duration.zero
          (validityWindow start stop)) = some (rotationDeadline start stop jitter)) ↔
      ¬start.CountsLeapSecond stop) ∧
    (start.IsRegular → stop.IsRegular → ∀ jitter, KeepsToValidity start stop jitter) := by
  have hlater := rotationDeadline_le_later_iff hstart.fraction hstop.fraction
  refine ⟨Instant.inRange_since hstop hstart, validityWindow_nonneg start stop, ?_,
    le_rotationDeadline hstart.fraction stop, ?_, ?_⟩
  · rintro ca rfl rfl asked deadline
    constructor
    · intro h
      obtain ⟨offset, _, rfl, hrest⟩ := Program.yields_ask_iff.mp h
      obtain ⟨rfl, rfl⟩ := Program.yields_done_iff.mp hrest
      exact ⟨offset, rfl, rfl⟩
    · rintro ⟨offset, rfl, rfl⟩
      exact .ask (.done _)
  · rw [← hlater]
    constructor
    · intro h jitter
      exact (h jitter).1
    · intro h jitter
      exact ⟨h jitter, add?_rotationDeadline hstart hstop (hlater.mp h) jitter⟩
  · intro hregular hregular' jitter
    have hcounts := @not_countsLeapSecond start stop hregular'
    have hsum := add?_rotationDeadline hstart hstop hcounts jitter
    exact {
      length := validityWindow_nanoseconds hregular hregular'
      sum := hsum
      starts := le_rotationDeadline hstart.fraction stop jitter
      ends := hlater.mpr hcounts jitter
      inside := fun hlow hhigh => by rwa [Duration.clamp_of_inside hlow hhigh] at hsum
      beyond := rotationDeadline_of_beyond hregular hregular'
      before := rotationDeadline_of_before hregular hregular'
      shift := fun _ _ _ => add?_rotationDeadline_of_add? hregular hregular' }

theorem rotationDeadline_of_readings_sample :
    Instant.first.IsReading ∧ Instant.last.IsReading ∧
      (Instant.last.since Instant.first).inRange = true ∧
      rotationDeadline Instant.first Instant.last (fun _ => Duration.max) = Instant.last ∧
      rotationDeadline Instant.last Instant.first (fun _ => Duration.max) = Instant.last := by
  have hfirst : Instant.first.IsReading := ⟨by decide, by decide⟩
  have hlast : Instant.last.IsReading := ⟨by decide, by decide⟩
  have hregular : Instant.first.IsRegular ∧ Instant.last.IsRegular := by
    unfold Instant.IsRegular
    decide
  obtain ⟨hrange, -, -, -, -, hkeeps⟩ := rotationDeadline_of_readings hfirst hlast
  obtain ⟨-, -, -, -, -, hkeeps'⟩ := rotationDeadline_of_readings hlast hfirst
  have hwhole := hkeeps hregular.1 hregular.2 fun _ => Duration.max
  have hreversed := hkeeps' hregular.2 hregular.1 fun _ => Duration.max
  exact ⟨hfirst, hlast, hrange, hwhole.beyond (by decide) (by decide),
    hreversed.before (.inr (by decide))⟩

/-- A validity of one second and a half, which ends in the leap second after its first second, and
its deadline for a longer offset. At the end of the calendar the sum is even out of range. -/
theorem rotationDeadline_gt_of_leapSecond :
    (⟨1700000039, 0⟩ : Instant).IsReading ∧ (⟨1700000039, 1500000000⟩ : Instant).IsReading ∧
      (⟨1700000039, 0⟩ : Instant) ≤ ⟨1700000039, 1500000000⟩ ∧
      validityWindow ⟨1700000039, 0⟩ ⟨1700000039, 1500000000⟩ < .ofSeconds 10 ∧
      rotationDeadline ⟨1700000039, 0⟩ ⟨1700000039, 1500000000⟩ (fun _ => .ofSeconds 10) =
        ⟨1700000040, 500000000⟩ ∧
      (⟨1700000039, 1500000000⟩ : Instant) < ⟨1700000040, 500000000⟩ ∧
      (⟨Instant.last.seconds, 1500000000⟩ : Instant).IsReading ∧
      Instant.last.add? (validityWindow Instant.last ⟨Instant.last.seconds, 1500000000⟩) =
        none := by
  refine ⟨⟨?_, ?_⟩, ⟨?_, ?_⟩, ?_, ?_, ?_, ?_, ⟨?_, ?_⟩, ?_⟩
  all_goals decide

end Deadline

end CertRotation
