import CertRotation.Time.Calendar

/-!
The calendar counts days without gaps: the date of a day exists, and its day is the given one. An
era is 400 years; its years begin in March.
-/

namespace CertRotation.Time.Date

/-- The days of an era before one of its years. -/
def yearStart (year : Int) : Int := 365 * year + year / 4 - year / 100 + year / 400

/-- The days of an era without its leap days, as far as a day. -/
def plainDays (day : Int) : Int := day - day / 1460 + day / 36524 - day / 146096

theorem plainDays_mono {a b : Int} (h : a ≤ b) : plainDays a ≤ plainDays b := by
  have hyears : a - a / 1460 ≤ b - b / 1460 := by omega
  have hcenturies : a / 36524 - a / 146096 ≤ b / 36524 - b / 146096 := by omega
  unfold plainDays
  omega

theorem plainDays_yearStart : ∀ year : Fin 400,
    365 * (year : Int) ≤ plainDays (yearStart year) ∧
      plainDays (yearStart (year + 1) - 1) < 365 * ((year : Int) + 1) := by
  decide +kernel

/-- The year of an era is the one between whose starts the day lies. -/
theorem yearStart_le_of_day {day : Int} (h0 : 0 ≤ day) (h1 : day < 146097) :
    0 ≤ plainDays day / 365 ∧ plainDays day / 365 < 400 ∧
      yearStart (plainDays day / 365) ≤ day ∧ day < yearStart (plainDays day / 365 + 1) := by
  have hzero : plainDays 0 ≤ plainDays day := plainDays_mono h0
  have hlast : plainDays day ≤ plainDays 146096 := plainDays_mono (by omega)
  have hends : plainDays 0 = 0 ∧ plainDays 146096 = 145999 := by decide
  have hyear0 : 0 ≤ plainDays day / 365 := by omega
  have hyear1 : plainDays day / 365 < 400 := by omega
  refine ⟨hyear0, hyear1, ?_, ?_⟩
  · refine Int.not_lt.mp fun hbefore => ?_
    have hpos : plainDays day / 365 ≠ 0 := by
      intro hyear
      rw [hyear] at hbefore
      have : yearStart 0 = 0 := by decide
      omega
    have hprevious := (plainDays_yearStart ⟨(plainDays day / 365 - 1).toNat, by omega⟩).2
    have hcast : ((plainDays day / 365 - 1).toNat : Int) = plainDays day / 365 - 1 := by omega
    simp only [hcast, Int.sub_add_cancel] at hprevious
    have hmono : plainDays day ≤ plainDays (yearStart (plainDays day / 365) - 1) :=
      plainDays_mono (by omega)
    omega
  · refine Int.not_le.mp fun hafter => ?_
    by_cases hnext : plainDays day / 365 = 399
    · rw [hnext] at hafter
      have : yearStart (399 + 1) = 146097 := by decide
      omega
    · have hfollowing := (plainDays_yearStart ⟨(plainDays day / 365 + 1).toNat, by omega⟩).1
      have hcast : ((plainDays day / 365 + 1).toNat : Int) = plainDays day / 365 + 1 := by omega
      simp only [hcast] at hfollowing
      have hmono : plainDays (yearStart (plainDays day / 365 + 1)) ≤ plainDays day :=
        plainDays_mono (by omega)
      omega

/-- The date of a day of a year that begins in March. -/
def ofDayOfYear (year dayOfYear : Int) : Date :=
  let monthFromMarch := (5 * dayOfYear + 2) / 153
  let day := dayOfYear - (153 * monthFromMarch + 2) / 5 + 1
  let month := if monthFromMarch < 10 then monthFromMarch + 3 else monthFromMarch - 9
  ⟨year + if month ≤ 2 then 1 else 0, month.toNat, day.toNat⟩

theorem monthFromMarch_cases {dayOfYear : Int} (h0 : 0 ≤ dayOfYear) (h1 : dayOfYear ≤ 365) :
    ∃ month : Fin 12, (5 * dayOfYear + 2) / 153 = (month : Int) ∧
      (153 * (month : Int) + 2) / 5 ≤ dayOfYear ∧
      dayOfYear < (153 * ((month : Int) + 1) + 2) / 5 := by
  refine ⟨⟨((5 * dayOfYear + 2) / 153).toNat, by omega⟩, ?_, ?_, ?_⟩
  · simp only
    omega
  · simp only
    omega
  · simp only
    omega

theorem toDays_ofDayOfYear {year dayOfYear : Int} (h0 : 0 ≤ dayOfYear) (h1 : dayOfYear ≤ 365) :
    (ofDayOfYear year dayOfYear).toDays =
      year * 365 + year / 4 - year / 100 + year / 400 + dayOfYear - 719468 := by
  obtain ⟨⟨month, hlt⟩, hmonth, hlow, -⟩ := monthFromMarch_cases h0 h1
  simp only at hmonth hlow
  simp only [ofDayOfYear, toDays, hmonth]
  by_cases hlate : (month : Int) < 10
  · have hspring : ¬ ((month : Int) + 3 ≤ 2) := by omega
    have hnat : ¬ (((month : Int) + 3).toNat ≤ 2) := by omega
    have hback : ((((month : Int) + 3).toNat : Int) + 9) % 12 = month := by omega
    simp only [hlate, if_true, hspring, hnat, if_false, hback, Int.add_zero]
    omega
  · have hwinter : (month : Int) - 9 ≤ 2 := by omega
    have hnat : ((month : Int) - 9).toNat ≤ 2 := by omega
    have hback : ((((month : Int) - 9).toNat : Int) + 9) % 12 = month := by omega
    simp only [hlate, if_false, hwinter, hnat, if_true, hback, Int.add_sub_cancel]
    omega

theorem isValid_ofDayOfYear {year dayOfYear : Int} (h0 : 0 ≤ dayOfYear) (h1 : dayOfYear ≤ 365)
    (hleap : dayOfYear = 365 → isLeapYear (year + 1) = true) :
    (ofDayOfYear year dayOfYear).isValid = true := by
  obtain ⟨⟨month, hlt⟩, hmonth, hlow, hhigh⟩ := monthFromMarch_cases h0 h1
  simp only at hmonth hlow hhigh
  simp only [ofDayOfYear, isValid, hmonth, Bool.and_eq_true, decide_eq_true_eq]
  have hmonths : month = 0 ∨ month = 1 ∨ month = 2 ∨ month = 3 ∨ month = 4 ∨ month = 5 ∨
      month = 6 ∨ month = 7 ∨ month = 8 ∨ month = 9 ∨ month = 10 ∨ month = 11 := by omega
  rcases hmonths with rfl | rfl | rfl | rfl | rfl | rfl | rfl | rfl | rfl | rfl | rfl | rfl
  -- Only the last month from March, February, needs the leap year.
  case inr.inr.inr.inr.inr.inr.inr.inr.inr.inr.inr =>
    cases hyear : isLeapYear (year + 1) with
    | false =>
        have hday : dayOfYear ≠ 365 := fun h => by simp [hleap h] at hyear
        simp [daysInMonth, hyear]
        omega
    | true =>
        simp [daysInMonth, hyear]
        omega
  all_goals
    simp [daysInMonth]
    omega

theorem isLeapYear_of_yearStart {year era : Int} (h0 : 0 ≤ year) (h1 : year < 400)
    (h : yearStart year + 365 < yearStart (year + 1)) :
    isLeapYear (year + era * 400 + 1) = true := by
  have hstarts : (year + 1) / 4 - year / 4 - ((year + 1) / 100 - year / 100) +
      ((year + 1) / 400 - year / 400) = 1 := by
    unfold yearStart at h
    omega
  have hfour : (year + era * 400 + 1) % 4 = 0 := by omega
  have hcentury : ¬ (year + era * 400 + 1) % 100 = 0 ∨ (year + era * 400 + 1) % 400 = 0 := by
    omega
  simp only [isLeapYear, Bool.and_eq_true, Bool.or_eq_true, decide_eq_true_eq]
  exact ⟨hfour, hcentury⟩

theorem ofDays_eq (days : Int) :
    ∃ year dayOfYear : Int, ofDays days = ofDayOfYear year dayOfYear ∧
      0 ≤ dayOfYear ∧ dayOfYear ≤ 365 ∧ (dayOfYear = 365 → isLeapYear (year + 1) = true) ∧
      year * 365 + year / 4 - year / 100 + year / 400 + dayOfYear - 719468 = days := by
  have hday0 : 0 ≤ (days + 719468) % 146097 := by omega
  have hday1 : (days + 719468) % 146097 < 146097 := by omega
  obtain ⟨hyear0, hyear1, hstart, hend⟩ := yearStart_le_of_day hday0 hday1
  generalize hday : (days + 719468) % 146097 = day at hyear0 hyear1 hstart hend
  generalize hyear : plainDays day / 365 = year at hyear0 hyear1 hstart hend
  generalize hera : (days + 719468) / 146097 = era
  have hdate : ofDays days =
      ofDayOfYear (year + era * 400) (day - (365 * year + year / 4 - year / 100)) := by
    have hdef : (day - day / 1460 + day / 36524 - day / 146096) / 365 = year := hyear
    simp only [ofDays, hday, hdef, hera]
    rfl
  have hlast : yearStart (year + 1) ≤ yearStart year + 366 := by
    unfold yearStart
    omega
  refine ⟨year + era * 400, day - (365 * year + year / 4 - year / 100), hdate, ?_, ?_, ?_, ?_⟩
  · unfold yearStart at hstart
    omega
  · unfold yearStart at hstart hend hlast
    omega
  · intro hleap
    apply isLeapYear_of_yearStart hyear0 hyear1
    have hzero : yearStart year + 365 = day := by
      unfold yearStart
      omega
    omega
  · omega

@[simp] theorem toDays_ofDays (days : Int) : (ofDays days).toDays = days := by
  obtain ⟨year, dayOfYear, hdate, h0, h1, -, hdays⟩ := ofDays_eq days
  rw [hdate, toDays_ofDayOfYear h0 h1, hdays]

@[simp] theorem isValid_ofDays (days : Int) : (ofDays days).isValid = true := by
  obtain ⟨year, dayOfYear, hdate, h0, h1, hleap, -⟩ := ofDays_eq days
  rw [hdate, isValid_ofDayOfYear h0 h1 hleap]

theorem ranges_of_isValid {date : Date} (h : date.isValid = true) :
    (1 ≤ date.month ∧ date.month ≤ 12) ∧ 1 ≤ date.day ∧ date.day ≤ 31 := by
  simp only [isValid, Bool.and_eq_true, decide_eq_true_eq] at h
  have hdays : daysInMonth date.year date.month ≤ 31 := by
    unfold daysInMonth
    split
    · split <;> omega
    · omega
    · omega
    · omega
    · omega
    · omega
  omega

theorem yearStart_mono {a b : Int} (h : a ≤ b) : yearStart a ≤ yearStart b := by
  have hfour : a / 4 - a / 100 ≤ b / 4 - b / 100 := by omega
  have hera : a / 400 ≤ b / 400 := by omega
  unfold yearStart
  omega

/-- A date lies between the first days of its year and of the next. The first of January comes 306
days after that of March. -/
theorem toDays_bounds {date : Date} (hmonth : 1 ≤ date.month ∧ date.month ≤ 12)
    (hday : 1 ≤ date.day ∧ date.day ≤ 31) :
    yearStart (date.year - 1) + 306 ≤ date.toDays + 719468 ∧
      date.toDays + 719468 < yearStart date.year + 306 := by
  have hlength : yearStart (date.year - 1) + 365 ≤ yearStart date.year := by
    unfold yearStart
    omega
  by_cases hwinter : date.month ≤ 2
  · have hdays : date.toDays + 719468 =
        yearStart (date.year - 1) + (153 * (((date.month : Int) + 9) % 12) + 2) / 5 +
          date.day - 1 := by
      rw [toDays, if_pos hwinter, yearStart]
      omega
    rw [hdays]
    omega
  · have hdays : date.toDays + 719468 =
        yearStart date.year + (153 * (((date.month : Int) + 9) % 12) + 2) / 5 + date.day - 1 := by
      rw [toDays, if_neg hwinter, yearStart]
      omega
    rw [hdays]
    omega

end CertRotation.Time.Date
