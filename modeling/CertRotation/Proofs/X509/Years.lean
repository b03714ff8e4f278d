import CertRotation.Proofs.X509.WholeSeconds

namespace CertRotation

theorem Issuance.isWritable_of_seconds {t : Instant} (hfirst : -62167219200 ≤ t.seconds)
    (hlast : t.seconds ≤ 253402300799) : isWritable t = true := by
  have hyear : (⟨-62167219200, 0⟩ : Instant).date.year ≤ t.date.year :=
    Instant.year_le_of_seconds_le hfirst
  have hyear' : t.date.year ≤ (⟨253402300799, 0⟩ : Instant).date.year :=
    Instant.year_le_of_seconds_le hlast
  have hstart : (⟨-62167219200, 0⟩ : Instant).date.year = 0 := by decide
  have hstop : (⟨253402300799, 0⟩ : Instant).date.year = 9999 := by decide
  rw [hstart] at hyear
  rw [hstop] at hyear'
  rw [isWritable, Bool.and_eq_true, decide_eq_true_eq, decide_eq_true_eq, lastYear]
  omega

theorem Instant.seconds_bounds {t : Instant} (h : Issuance.isWritable t = true) :
    -400000000000 < t.seconds ∧ t.seconds < 400000000000 := by
  simp only [Issuance.isWritable, Bool.and_eq_true, decide_eq_true_eq] at h
  have hyear : Issuance.lastYear = 9999 := rfl
  have hday := t.toDays_date
  have hmonth := t.date_bounds
  have hearly := t.timeOfDay_nonneg
  have hlate := t.timeOfDay_lt
  simp only [Time.Date.toDays, secondsPerDay] at hday
  split at hday
  · omega
  · omega

namespace X509

open Issuance (isWritable isWritable_of_seconds)
open Time.Date (yearStart)

variable {reading : ClockReading} {offset : Int} {t : Instant} {text rest : List Char}

/-- A reading lies between the first seconds of its year and of the next. The first day of 1970 is
the 719468th after a first of March, and the first of January comes 306 days after that of March. -/
theorem seconds_of_instant? (h : reading.instant? offset = some t) :
    (yearStart (reading.date.year - 1) - 719162) * 86400 ≤ t.seconds + offset ∧
      t.seconds + offset < (yearStart reading.date.year - 719162) * 86400 := by
  unfold ClockReading.instant? at h
  split at h
  · rename_i hvalid
    obtain ⟨hdate, hhour, hminute, hsecond⟩ := hvalid
    obtain ⟨hmonth, hday⟩ := Time.Date.ranges_of_isValid hdate
    have hdays := Time.Date.toDays_bounds hmonth hday
    cases h
    simp only [Instant.secondsPerDay]
    omega
  · cases h

theorem year_of_clockReading? {year : Int}
    (h : clockReading? year text = some (reading, rest)) : reading.date.year = year := by
  unfold clockReading? at h
  split at h
  · simp only [Option.bind_eq_bind, Option.bind_eq_some_iff] at h
    obtain ⟨_, -, _, -, _, -, _, -, h⟩ := h
    split at h
    · obtain ⟨_, -, h⟩ := Option.bind_eq_some_iff.mp h
      cases h
      rfl
    · cases h
      rfl
  · cases h

theorem lt_of_twoDigits? {high low : Char} {n : Nat} (h : twoDigits? high low = some n) :
    n < 100 := by
  unfold twoDigits? at h
  split at h
  · rename_i hdigits
    simp only [Text.isDigit, Bool.and_eq_true, decide_eq_true_eq, Char.le_def,
      UInt32.le_iff_toNat_le] at hdigits
    cases h
    simp only [Text.decimalValue, List.foldl_cons, List.foldl_nil, Char.toNat]
    have hnine : '9'.val.toNat = 57 := by decide
    rw [hnine] at hdigits
    omega
  · cases h

theorem zoneOffset?_bounds {negative : Bool} {hours minutes : Nat}
    (h : zoneOffset? negative hours minutes = some offset) :
    -100000 ≤ offset ∧ offset ≤ 100000 := by
  unfold zoneOffset? ClockReading.maxZoneHours at h
  split at h
  · cases h
  · cases h
    split
    · omega
    · omega

theorem zone?_bounds (h : zone? text = some offset) : -100000 ≤ offset ∧ offset ≤ 100000 := by
  unfold zone? at h
  split at h
  · cases h
    decide
  · simp only [Option.bind_eq_bind, Option.bind_eq_some_iff] at h
    obtain ⟨_, -, _, -, h⟩ := h
    split at h
    · exact zoneOffset?_bounds h
    · split at h
      · exact zoneOffset?_bounds h
      · cases h
  · cases h

theorem isWritable_of_shortTime? (h : shortTime? text = some t) : isWritable t = true := by
  unfold shortTime? at h
  split at h
  · simp only [Option.bind_eq_bind, Option.bind_eq_some_iff] at h
    obtain ⟨year, hyear, ⟨reading, left⟩, hreading, offset, hoffset, h⟩ := h
    have hbounds := seconds_of_instant? h
    have hzone := zone?_bounds hoffset
    have hlt := lt_of_twoDigits? hyear
    rw [year_of_clockReading? hreading] at hbounds
    -- The zone moves the time by little more than a day, and the years are far from the ends.
    have hfull : 1950 ≤ fullYear year ∧ fullYear year ≤ 2049 := by
      unfold fullYear
      omega
    have hfirst : yearStart 1949 ≤ yearStart (fullYear year - 1) :=
      Time.Date.yearStart_mono (by omega)
    have hlast : yearStart (fullYear year) ≤ yearStart 2049 := Time.Date.yearStart_mono hfull.2
    have hends : yearStart 1949 = 711857 ∧ yearStart 2049 = 748382 := by decide
    apply isWritable_of_seconds <;> omega
  · cases h

theorem isWritable_of_longTime? (h : longTime? text = some t) : isWritable t = true := by
  unfold longTime? at h
  split at h
  · simp only [Option.bind_eq_bind, Option.bind_eq_some_iff] at h
    obtain ⟨century, hcentury, year, hyear, ⟨reading, left⟩, hreading, _, -, h⟩ := h
    split at h
    · have hbounds := seconds_of_instant? h
      have hhigh := lt_of_twoDigits? hcentury
      have hlow := lt_of_twoDigits? hyear
      rw [year_of_clockReading? hreading] at hbounds
      have hfirst : yearStart (-1) ≤ yearStart (((century * 100 + year : Nat) : Int) - 1) :=
        Time.Date.yearStart_mono (by omega)
      have hlast : yearStart ((century * 100 + year : Nat) : Int) ≤ yearStart 9999 :=
        Time.Date.yearStart_mono (by omega)
      have hends : yearStart (-1) = -366 ∧ yearStart 9999 = 3652059 := by decide
      apply isWritable_of_seconds <;> omega
    · cases h
  · cases h

end X509

theorem Issuance.isWritable_of_ofDer {der : Octets} {cert : Certificate}
    (h : Certificate.ofDer der = .ok cert) :
    isWritable cert.notBefore = true ∧ isWritable cert.notAfter = true :=
  Certificate.validity_of_gives (X509.gives_time_of (fun _ _ => X509.isWritable_of_shortTime?)
    fun _ _ => X509.isWritable_of_longTime?) h

end CertRotation
