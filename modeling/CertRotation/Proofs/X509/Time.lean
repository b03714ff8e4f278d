import CertRotation.Proofs.Asn1.Element
import CertRotation.Proofs.Time.Instant
import CertRotation.X509.Time

namespace CertRotation

namespace Text

theorem toList_padded_two {n : Nat} (h : n < 100) :
    (padded 2 n).toList = [(n / 10).digitChar, (n % 10).digitChar] := by
  by_cases hten : n < 10
  · have hzero : n / 10 = 0 := by omega
    have hself : n % 10 = n := by omega
    simp [padded, Nat.toDigits_of_lt_base hten, hzero, hself]
  · have htens : n / 10 < 10 := by omega
    simp [padded, Nat.toDigits_of_base_le (by omega) (Nat.le_of_not_lt hten),
      Nat.toDigits_of_lt_base htens]

theorem toList_padded_four {n : Nat} (h : n < 10000) :
    (padded 4 n).toList = [(n / 100 / 10).digitChar, (n / 100 % 10).digitChar,
      (n % 100 / 10).digitChar, (n % 10).digitChar] := by
  have hthousands : n / 100 / 10 = n / 10 / 10 / 10 := by omega
  have hhundreds : n / 100 % 10 = n / 10 / 10 % 10 := by omega
  have htens : n % 100 / 10 = n / 10 % 10 := by omega
  rw [hthousands, hhundreds, htens]
  by_cases h1 : n < 10
  · have hzero : n / 10 = 0 := by omega
    simp [padded, Nat.toDigits_of_lt_base h1, hzero, Nat.mod_eq_of_lt h1]
  by_cases h2 : n / 10 < 10
  · have hzero : n / 10 / 10 = 0 := by omega
    simp [padded, Nat.toDigits_of_base_le (by omega) (Nat.le_of_not_lt h1),
      Nat.toDigits_of_lt_base h2, hzero, Nat.mod_eq_of_lt h2]
  by_cases h3 : n / 10 / 10 < 10
  · have hzero : n / 10 / 10 / 10 = 0 := by omega
    simp [padded, Nat.toDigits_of_base_le (by omega) (Nat.le_of_not_lt h1),
      Nat.toDigits_of_base_le (by omega) (Nat.le_of_not_lt h2),
      Nat.toDigits_of_lt_base h3, hzero, Nat.mod_eq_of_lt h3]
  · have hlast : n / 10 / 10 / 10 < 10 := by omega
    simp [padded, Nat.toDigits_of_base_le (by omega) (Nat.le_of_not_lt h1),
      Nat.toDigits_of_base_le (by omega) (Nat.le_of_not_lt h2),
      Nat.toDigits_of_base_le (by omega) (Nat.le_of_not_lt h3),
      Nat.toDigits_of_lt_base hlast]

end Text

namespace X509

open Asn1

theorem twoDigits?_digitChar {high low : Nat} (hhigh : high < 10) (hlow : low < 10) :
    twoDigits? high.digitChar low.digitChar = some (high * 10 + low) := by
  have hall : ∀ a b : Fin 10,
      twoDigits? (a : Nat).digitChar (b : Nat).digitChar = some ((a : Nat) * 10 + b) := by
    decide
  exact hall ⟨high, hhigh⟩ ⟨low, hlow⟩

/-- The characters of a number below 100. -/
def digitPair (n : Nat) : List Char := [(n / 10).digitChar, (n % 10).digitChar]

theorem twoDigits?_digitPair {n : Nat} (h : n < 100) :
    twoDigits? (n / 10).digitChar (n % 10).digitChar = some n := by
  rw [twoDigits?_digitChar (by omega) (by omega)]
  congr 1
  omega

theorem isVisible_digitPair {n : Nat} (h : n < 100) :
    ∀ c ∈ digitPair n, 0x20 ≤ c.toNat ∧ c.toNat ≤ 0x7f := by
  have hdigit : ∀ d : Fin 10, 0x20 ≤ (d : Nat).digitChar.toNat ∧
      (d : Nat).digitChar.toNat ≤ 0x7f := by
    decide
  intro c hc
  simp only [digitPair, List.mem_cons, List.not_mem_nil, or_false] at hc
  rcases hc with rfl | rfl
  · exact hdigit ⟨n / 10, by omega⟩
  · exact hdigit ⟨n % 10, by omega⟩

theorem visible?_map {text : List Char} (h : ∀ c ∈ text, 0x20 ≤ c.toNat ∧ c.toNat ≤ 0x7f) :
    visible? (text.map fun c => UInt8.ofNat c.toNat) = some text := by
  have hback : ∀ c ∈ text, (UInt8.ofNat c.toNat).toNat = c.toNat := by
    intro c hc
    have := (h c hc).2
    rw [UInt8.toNat_ofNat']
    omega
  have hall : ((text.map fun c => UInt8.ofNat c.toNat).all
      fun byte => 0x20 ≤ byte && byte ≤ 0x7f) = true := by
    rw [List.all_eq_true]
    intro byte hbyte
    obtain ⟨c, hc, rfl⟩ := List.mem_map.mp hbyte
    simp only [Bool.and_eq_true, decide_eq_true_eq, UInt8.le_iff_toNat_le, hback c hc]
    exact h c hc
  have hmap : (text.map fun c => UInt8.ofNat c.toNat).map (fun byte => Char.ofNat byte.toNat) =
      text := by
    rw [List.map_map]
    conv => rhs; rw [← List.map_id text]
    apply List.map_congr_left
    intro c hc
    simp [hback c hc, Char.ofNat_toNat]
  simp only [visible?, hall, if_true, hmap]

theorem clockReading?_digitPairs (year : Int) {month day hour minute second : Nat}
    (hmonth : month < 100) (hday : day < 100) (hhour : hour < 100) (hminute : minute < 100)
    (hsecond : second < 100) (rest : List Char) :
    clockReading? year (digitPair month ++ digitPair day ++ digitPair hour ++ digitPair minute ++
      digitPair second ++ rest) =
        some (⟨⟨year, month, day⟩, hour, minute, second⟩, rest) := by
  simp only [digitPair, List.cons_append, List.nil_append, clockReading?,
    twoDigits?_digitPair hmonth, twoDigits?_digitPair hday, twoDigits?_digitPair hhour,
    twoDigits?_digitPair hminute, twoDigits?_digitPair hsecond]
  rfl

/-- What follows the year in a written time. -/
def clockText (t : Instant) : List Char :=
  let second := t.timeOfDay.toNat
  digitPair t.date.month ++ digitPair t.date.day ++ digitPair (second / 3600) ++
    digitPair (second / 60 % 60) ++ digitPair (second % 60) ++ ['Z']

/-- What a written time consists of, before it becomes octets. -/
def timeText (t : Instant) : List Char :=
  if 1950 ≤ t.date.year ∧ t.date.year < 2050 then
    digitPair (t.date.year % 100).toNat ++ clockText t
  else (yearDigits t.date.year).toList ++ clockText t

theorem encodeTime_eq (t : Instant) :
    encodeTime t =
      encode (if 1950 ≤ t.date.year ∧ t.date.year < 2050 then 23 else 24)
        ((timeText t).map fun c => UInt8.ofNat c.toNat) := by
  obtain ⟨hmonth, hday⟩ := t.date_bounds
  have hsecond := t.timeOfDay_lt
  have hpairs : (Text.padded 2 t.date.month ++ Text.padded 2 t.date.day ++
      Text.padded 2 (t.timeOfDay.toNat / 3600) ++ Text.padded 2 (t.timeOfDay.toNat / 60 % 60) ++
      Text.padded 2 (t.timeOfDay.toNat % 60) ++ "Z").toList = clockText t := by
    simp only [String.toList_append, Text.toList_padded_two hmonth, Text.toList_padded_two hday,
      Text.toList_padded_two (show t.timeOfDay.toNat / 3600 < 100 by omega),
      Text.toList_padded_two (show t.timeOfDay.toNat / 60 % 60 < 100 by omega),
      Text.toList_padded_two (show t.timeOfDay.toNat % 60 < 100 by omega)]
    rfl
  unfold encodeTime timeText
  simp only [String.toList_append] at hpairs ⊢
  split
  · have hyear : (t.date.year % 100).toNat < 100 := by omega
    rw [Text.toList_padded_two hyear, hpairs]
    rfl
  · rw [hpairs]

theorem time_encode {tag : UInt8} (htag : tag.toNat % 32 ≠ 31) {text : List Char}
    (hvisible : ∀ c ∈ text, 0x20 ≤ c.toNat ∧ c.toNat ≤ 0x7f) (rest : Octets) :
    time (encode tag (text.map fun c => UInt8.ofNat c.toNat) ++ rest) =
      if text.length < 2 ^ 64 then
        (if tag.toNat % 32 = 23 then shortTime? text
          else if tag.toNat % 32 = 24 then longTime? text else none).map (·, rest)
      else none := by
  have hread := Tolerant.element_encode htag (text.map fun c => UInt8.ofNat c.toNat) rest
  rw [List.length_map] at hread
  simp only [time, bind, StateT.bind, hread]
  split
  · simp only [Tolerant.elementOf, Option.bind_some, liftM_apply, visible?_map hvisible,
      Option.map_some]
    split
    · exact liftM_apply _ _
    · split
      · exact liftM_apply _ _
      · rfl
  · rfl

theorem isVisible_clockText (t : Instant) :
    ∀ c ∈ clockText t, 0x20 ≤ c.toNat ∧ c.toNat ≤ 0x7f := by
  obtain ⟨hmonth, hday⟩ := t.date_bounds
  have hsecond := t.timeOfDay_lt
  intro c hc
  simp only [clockText, List.mem_append] at hc
  rcases hc with ((((hc | hc) | hc) | hc) | hc) | hc
  · exact isVisible_digitPair hmonth c hc
  · exact isVisible_digitPair hday c hc
  · exact isVisible_digitPair (by omega) c hc
  · exact isVisible_digitPair (by omega) c hc
  · exact isVisible_digitPair (by omega) c hc
  · obtain rfl := List.mem_singleton.mp hc
    decide

theorem clockReading?_clockText (year : Int) (t : Instant) :
    clockReading? year (clockText t) =
      some (⟨⟨year, t.date.month, t.date.day⟩, t.timeOfDay.toNat / 3600,
        t.timeOfDay.toNat / 60 % 60, t.timeOfDay.toNat % 60⟩, ['Z']) := by
  obtain ⟨hmonth, hday⟩ := t.date_bounds
  have hsecond := t.timeOfDay_lt
  exact clockReading?_digitPairs year hmonth hday (by omega) (by omega) (by omega) ['Z']

theorem instant?_clockReading (t : Instant) :
    (⟨t.date, t.timeOfDay.toNat / 3600, t.timeOfDay.toNat / 60 % 60,
      t.timeOfDay.toNat % 60⟩ : ClockReading).instant? 0 = some t.truncate := by
  have hsecond := t.timeOfDay_lt
  have hnonneg := t.timeOfDay_nonneg
  have hdays := t.toDays_date
  have hclock : t.timeOfDay.toNat / 3600 ≤ 23 ∧ t.timeOfDay.toNat / 60 % 60 ≤ 59 ∧
      t.timeOfDay.toNat % 60 ≤ 59 := by
    omega
  simp only [ClockReading.instant?, t.date_isValid, hclock, and_self, if_true,
    Option.some.injEq, Instant.truncate, Instant.mk.injEq, and_true]
  omega

theorem shortTime?_of_year {t : Instant} (h : 1950 ≤ t.date.year ∧ t.date.year < 2050) :
    shortTime? (digitPair (t.date.year % 100).toNat ++ clockText t) = some t.truncate := by
  have hyear : (t.date.year % 100).toNat < 100 := by omega
  have hfull : fullYear (t.date.year % 100).toNat = t.date.year := by
    unfold fullYear
    split <;> omega
  simp only [digitPair, List.cons_append, List.nil_append, shortTime?, twoDigits?_digitPair hyear,
    hfull, Option.bind_eq_bind, Option.bind_some, clockReading?_clockText, zone?]
  exact instant?_clockReading t

theorem toList_yearDigits {year : Int} (h0 : 0 ≤ year) (h1 : year ≤ 9999) :
    (yearDigits year).toList = digitPair (year.toNat / 100) ++ digitPair (year.toNat % 100) := by
  have hnat : year.toNat < 10000 := by omega
  have hmod : year.toNat % 100 % 10 = year.toNat % 10 := by omega
  rw [yearDigits, if_neg (by omega), Text.toList_padded_four hnat]
  simp [digitPair, hmod]

theorem longTime?_of_year {t : Instant} (h0 : 0 ≤ t.date.year) (h1 : t.date.year ≤ 9999) :
    longTime? ((yearDigits t.date.year).toList ++ clockText t) = some t.truncate := by
  have hhigh : t.date.year.toNat / 100 < 100 := by omega
  have hlow : t.date.year.toNat % 100 < 100 := by omega
  have hfull : ((t.date.year.toNat / 100 * 100 + t.date.year.toNat % 100 : Nat) : Int) =
      t.date.year := by
    omega
  rw [toList_yearDigits h0 h1]
  simp only [digitPair, List.cons_append, List.nil_append, longTime?, twoDigits?_digitPair hhigh,
    twoDigits?_digitPair hlow, hfull, Option.bind_eq_bind, Option.bind_some,
    clockReading?_clockText, dropFraction?]
  exact instant?_clockReading t

theorem longTime?_of_sign (text : List Char) : longTime? ('-' :: text) = none := by
  unfold longTime?
  split
  · rename_i heq
    obtain ⟨rfl, rfl⟩ := List.cons.inj heq
    rfl
  · rfl

theorem length_clockText (t : Instant) : (clockText t).length = 11 := by
  simp [clockText, digitPair]

theorem isVisible_digits (n : Nat) :
    ∀ c ∈ Nat.toDigits 10 n, 0x20 ≤ c.toNat ∧ c.toNat ≤ 0x7f := by
  intro c hc
  have hdigit := Nat.isDigit_of_mem_toDigits (by omega) (by omega) hc
  simp only [Char.isDigit, Bool.and_eq_true, decide_eq_true_eq, ge_iff_le,
    UInt32.le_iff_toNat_le] at hdigit
  have hends : '0'.val.toNat = 48 ∧ '9'.val.toNat = 57 := by decide
  have hvalue : c.val.toNat = c.toNat := rfl
  omega

theorem time_encodeTime_of_neg {t : Instant} (h : t.date.year < 0) (rest : Octets) :
    time (encodeTime t ++ rest) = none := by
  have hyear : ¬ (1950 ≤ t.date.year ∧ t.date.year < 2050) := by omega
  have hsigned : (yearDigits t.date.year).toList =
      '-' :: (List.replicate (3 - (Nat.toDigits 10 t.date.year.natAbs).length) '0' ++
        Nat.toDigits 10 t.date.year.natAbs) := by
    simp [yearDigits, h, Text.padded]
  have htext : timeText t = '-' :: (List.replicate (3 - (Nat.toDigits 10
      t.date.year.natAbs).length) '0' ++ Nat.toDigits 10 t.date.year.natAbs ++ clockText t) := by
    simp [timeText, hyear, hsigned]
  have hvisible : ∀ c ∈ timeText t, 0x20 ≤ c.toNat ∧ c.toNat ≤ 0x7f := by
    intro c hc
    simp only [htext, List.mem_cons, List.mem_append, List.mem_replicate] at hc
    rcases hc with rfl | (⟨-, rfl⟩ | hc) | hc
    · decide
    · decide
    · exact isVisible_digits _ c hc
    · exact isVisible_clockText t c hc
  rw [encodeTime_eq, if_neg hyear, time_encode (by decide) hvisible, htext, longTime?_of_sign]
  simp

/-- A time is read back to the second, unless its year is negative. -/
theorem time_encodeTime {t : Instant} (h : t.date.year ≤ 9999) (rest : Octets) :
    time (encodeTime t ++ rest) =
      if 0 ≤ t.date.year then some (t.truncate, rest) else none := by
  by_cases hneg : t.date.year < 0
  · rw [time_encodeTime_of_neg hneg, if_neg (by omega)]
  · have hpos : 0 ≤ t.date.year := by omega
    rw [encodeTime_eq, if_pos hpos]
    by_cases hshort : 1950 ≤ t.date.year ∧ t.date.year < 2050
    · have htext : timeText t = digitPair (t.date.year % 100).toNat ++ clockText t := by
        simp [timeText, hshort]
      have hvisible : ∀ c ∈ timeText t, 0x20 ≤ c.toNat ∧ c.toNat ≤ 0x7f := by
        rw [htext]
        exact List.forall_mem_append.mpr
          ⟨isVisible_digitPair (by omega), isVisible_clockText t⟩
      rw [if_pos hshort, time_encode (by decide) hvisible, htext, shortTime?_of_year hshort]
      simp [length_clockText, digitPair]
    · have htext : timeText t = (yearDigits t.date.year).toList ++ clockText t := by
        simp [timeText, hshort]
      have hvisible : ∀ c ∈ timeText t, 0x20 ≤ c.toNat ∧ c.toNat ≤ 0x7f := by
        rw [htext, toList_yearDigits hpos h, List.append_assoc]
        exact List.forall_mem_append.mpr ⟨isVisible_digitPair (by omega),
          List.forall_mem_append.mpr ⟨isVisible_digitPair (by omega), isVisible_clockText t⟩⟩
      rw [if_neg hshort, time_encode (by decide) hvisible, htext, longTime?_of_year hpos h,
        toList_yearDigits hpos h]
      simp [length_clockText, digitPair]

end X509

end CertRotation
