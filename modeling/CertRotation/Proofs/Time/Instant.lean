import CertRotation.Proofs.Time.Calendar
import CertRotation.Time.Instant

namespace CertRotation.Instant

theorem timeOfDay_nonneg (t : Instant) : 0 ≤ t.timeOfDay := Int.emod_nonneg _ (by decide)

theorem timeOfDay_lt (t : Instant) : t.timeOfDay < 86400 := Int.emod_lt_of_pos _ (by decide)

theorem date_isValid (t : Instant) : t.date.isValid = true := Time.Date.isValid_ofDays _

theorem date_ranges (t : Instant) :
    (1 ≤ t.date.month ∧ t.date.month ≤ 12) ∧ 1 ≤ t.date.day ∧ t.date.day ≤ 31 :=
  Time.Date.ranges_of_isValid t.date_isValid

theorem date_bounds (t : Instant) : t.date.month < 100 ∧ t.date.day < 100 := by
  have hranges := t.date_ranges
  omega

theorem toDays_date (t : Instant) :
    t.date.toDays * secondsPerDay + t.timeOfDay = t.seconds := by
  rw [date, Time.Date.toDays_ofDays]
  exact Int.mul_comm _ _ ▸ Int.mul_ediv_add_emod t.seconds secondsPerDay

theorem year_le_of_seconds_le {s t : Instant} (h : s.seconds ≤ t.seconds) :
    s.date.year ≤ t.date.year := by
  have hdays : s.date.toDays ≤ t.date.toDays := by
    have hs := s.toDays_date
    have ht := t.toDays_date
    have hearly := s.timeOfDay_nonneg
    have hlate := t.timeOfDay_lt
    unfold secondsPerDay at hs ht
    omega
  have hs := s.date_ranges
  have ht := t.date_ranges
  have hfirst := (Time.Date.toDays_bounds hs.1 hs.2).1
  have hlast := (Time.Date.toDays_bounds ht.1 ht.2).2
  refine Int.not_lt.mp fun hyear => ?_
  have hstarts : Time.Date.yearStart t.date.year ≤ Time.Date.yearStart (s.date.year - 1) :=
    Time.Date.yearStart_mono (by omega)
  omega

end CertRotation.Instant
