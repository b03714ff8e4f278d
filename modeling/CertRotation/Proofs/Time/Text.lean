import CertRotation.Proofs.Text.Decimal
import CertRotation.Proofs.Time.Nanoseconds
import CertRotation.Time.Reader
import CertRotation.Time.Text
import Mathlib.Data.Nat.Digits.Lemmas
import Mathlib.Data.List.TakeWhile

namespace CertRotation

namespace Text

variable {width n : ℕ}

theorem toList_padded (width n : ℕ) :
    (padded width n).toList =
      List.replicate (width - (Nat.toDigits 10 n).length) '0' ++ Nat.toDigits 10 n :=
  String.toList_ofList

theorem isDigits_padded (width n : ℕ) : IsDigits (padded width n).toList := by
  rw [toList_padded]
  refine ⟨List.append_ne_nil_of_right_ne_nil _ Nat.toDigits_ne_nil, fun c hc => ?_⟩
  rcases List.mem_append.mp hc with hc | hc
  · exact isDigit_of_mem_zeros hc
  · exact (isDigits_toDigits n).all c hc

@[simp] theorem decimalValue_padded (width n : ℕ) : decimalValue (padded width n).toList = n := by
  rw [toList_padded, decimalValue_eq, Nat.ofDigitChars_append, Nat.ofDigitChars_replicate_zero,
    Nat.mul_zero, Nat.ofDigitChars_ten_toDigits]

theorem length_padded (hwidth : 0 < width) (h : n < 10 ^ width) :
    (padded width n).toList.length = width := by
  have hdigits := (Nat.length_toDigits_le_iff (by decide) hwidth).mpr h
  rw [toList_padded, List.length_append, List.length_replicate]
  omega

theorem isBlank_of_isDigit {c : Char} (h : isDigit c = true) : isBlank c = false := by
  simp only [isDigit, Bool.and_eq_true, decide_eq_true_eq, Char.le_def, UInt32.le_iff_toNat_le]
    at h
  simp only [isBlank, Bool.or_eq_false_iff, Bool.and_eq_false_iff, decide_eq_false_iff_not,
    beq_eq_false_iff_ne, Char.toNat]
  have hzero : '0'.val.toNat = 48 := rfl
  have hnine : '9'.val.toNat = 57 := rfl
  omega

end Text

namespace Time

open Text

variable {digits rest : List Char}

theorem bind_apply {α β : Type} (read : TextReader α) (next : α → TextReader β)
    (text : List Char) :
    (read >>= next) text = (read text).bind fun (value, rest) => next value rest := rfl

theorem bind_of_read {α β : Type} {read : TextReader α} {text : List Char} {value : α}
    (h : read text = some (value, rest)) (next : α → TextReader β) :
    (read >>= next) text = next value rest := by
  rw [bind_apply, h, Option.bind_some]

theorem skipBlanks_cons {c : Char} (h : isBlank c = false) (rest : List Char) :
    skipBlanks (c :: rest) = some ((), c :: rest) := by
  have hdrop : (c :: rest).dropWhile isBlank = c :: rest :=
    List.dropWhile_cons_of_neg (by simp [h])
  change some ((), (c :: rest).dropWhile isBlank) = _
  rw [hdrop]

theorem skipBlanks_append (h : IsDigits digits) (rest : List Char) :
    skipBlanks (digits ++ rest) = some ((), digits ++ rest) := by
  obtain ⟨c, digits, rfl⟩ := List.exists_cons_of_ne_nil h.ne_nil
  exact skipBlanks_cons (isBlank_of_isDigit (h.all c List.mem_cons_self)) _

/-- A text that does not go on with a digit. -/
def EndsDigits (rest : List Char) : Prop := ∀ c, rest.head? = some c → isDigit c = false

theorem endsDigits_cons {c : Char} (h : isDigit c = false) (rest : List Char) :
    EndsDigits (c :: rest) := by
  intro d hd
  cases hd
  exact h

theorem digitsOf_of_takeWhile {field : List Char} (h : field.takeWhile isDigit = digits)
    (hne : digits ≠ []) (text : List Char) :
    digitsOf field text = some (digits, text.drop digits.length) := by
  rw [digitsOf, h]
  cases digits with
  | nil => exact absurd rfl hne
  | cons c digits => rfl

theorem digitsOf_append (h : IsDigits digits) (hrest : EndsDigits rest) :
    digitsOf (digits ++ rest) (digits ++ rest) = some (digits, rest) := by
  have hrun : (digits ++ rest).takeWhile isDigit = digits := by
    rw [List.takeWhile_append_of_pos h.all]
    cases rest with
    | nil => simp
    | cons c rest =>
        rw [List.takeWhile_cons_of_neg]
        · simp
        · simp [hrest c rfl]
  rw [digitsOf_of_takeWhile hrun h.ne_nil, List.drop_left]

theorem number_append (h : IsDigits digits) (rest : List Char) :
    number digits.length (digits ++ rest) = some (decimalValue digits, rest) := by
  have hrun : ((digits ++ rest).take digits.length).takeWhile isDigit = digits := by
    rw [List.take_left]
    exact List.takeWhile_eq_self_iff.mpr h.all
  have hread := digitsOf_of_takeWhile hrun h.ne_nil (digits ++ rest)
  rw [List.drop_left] at hread
  rw [number, bind_of_read (skipBlanks_append h rest)]
  exact bind_of_read hread fun digits => pure (decimalValue digits)

theorem number_padded {width n : ℕ} (hwidth : 0 < width) (h : n < 10 ^ width)
    (rest : List Char) : number width ((padded width n).toList ++ rest) = some (n, rest) := by
  have hread := number_append (isDigits_padded width n) rest
  rw [length_padded hwidth h, decimalValue_padded] at hread
  exact hread

theorem year_signed (h : IsDigits digits) (hrest : EndsDigits rest) :
    year ('-' :: (digits ++ rest)) = some (-(decimalValue digits : ℤ), rest) ∧
      year ('+' :: (digits ++ rest)) = some ((decimalValue digits : ℤ), rest) := by
  have hread := digitsOf_append h hrest
  constructor
  · rw [year, bind_of_read (skipBlanks_cons (by decide) _)]
    exact bind_of_read hread fun digits => pure (-(decimalValue digits : ℤ))
  · rw [year, bind_of_read (skipBlanks_cons (by decide) _)]
    exact bind_of_read hread fun digits => pure (decimalValue digits : ℤ)

theorem year_unsigned (h : IsDigits digits) (hlength : digits.length = 4) (rest : List Char) :
    year (digits ++ rest) = some ((decimalValue digits : ℤ), rest) := by
  have hread := number_append h rest
  obtain ⟨c, digits, rfl⟩ := List.exists_cons_of_ne_nil h.ne_nil
  have hc : isDigit c = true := h.all c List.mem_cons_self
  have hget (text : List Char) : (get : TextReader (List Char)) text = some (text, text) := rfl
  rw [hlength] at hread
  simp only [year, bind_apply, skipBlanks_append h, Option.bind_some, hget]
  refine (congrFun (?_ : _ = (do return ((← number 4 : ℕ) : ℤ) : TextReader ℤ)) _).trans ?_
  · split
    · rename_i heq
      cases heq
      cases hc
    · rename_i heq
      cases heq
      cases hc
    · rfl
  · simp only [bind_apply, hread, Option.bind_some]
    rfl

theorem year_yearText (y : ℤ) (hrest : EndsDigits rest) :
    year ((yearText y).toList ++ rest) = some (y, rest) := by
  by_cases hplain : 0 ≤ y ∧ y ≤ 9999
  · have hlength := @length_padded 4 y.toNat (by decide) (by omega)
    rw [yearText, if_pos hplain, year_unsigned (isDigits_padded 4 y.toNat) hlength,
      decimalValue_padded, Int.toNat_of_nonneg hplain.1]
  · obtain ⟨hminus, hplus⟩ := year_signed (isDigits_padded 4 y.natAbs) hrest
    rw [decimalValue_padded] at hminus hplus
    rw [yearText, if_neg hplain]
    by_cases hneg : y < 0
    · have hvalue : -(y.natAbs : ℤ) = y := by omega
      have hsign : "-".toList = ['-'] := rfl
      rw [if_pos hneg, String.toList_append, hsign, List.append_assoc, List.singleton_append]
      rw [hvalue] at hminus
      exact hminus
    · have hvalue : (y.natAbs : ℤ) = y := by omega
      have hsign : "+".toList = ['+'] := rfl
      rw [if_neg hneg, String.toList_append, hsign, List.append_assoc, List.singleton_append]
      rw [hvalue] at hplus
      exact hplus

theorem separator_cons {c : Char} (h : isBlank c = false) (rest : List Char) :
    separator c (c :: rest) = some ((), rest) := by
  rw [separator, bind_of_read (skipBlanks_cons h rest)]
  exact if_pos rfl

theorem date_text {d : Date} (h : d.isValid = true) (hmonth : d.month < 100) (hday : d.day < 100)
    (rest : List Char) : date (d.text.toList ++ rest) = some (d, rest) := by
  have hhyphen : ∀ text, separator '-' ('-' :: text) = some ((), text) :=
    separator_cons (by decide)
  have hyear : ∀ text, year ((yearText d.year).toList ++ '-' :: text) =
      some (d.year, '-' :: text) :=
    fun text => year_yearText d.year (endsDigits_cons (by decide) text)
  have hmonths : ∀ text, number 2 ((padded 2 d.month).toList ++ text) = some (d.month, text) :=
    number_padded (by decide) hmonth
  have hdays : ∀ text, number 2 ((padded 2 d.day).toList ++ text) = some (d.day, text) :=
    number_padded (by decide) hday
  have htext : d.text.toList ++ rest = (yearText d.year).toList ++
      '-' :: ((padded 2 d.month).toList ++ '-' :: ((padded 2 d.day).toList ++ rest)) := by
    simp [Date.text]
  rw [htext]
  simp only [date, bind_apply, hyear, hhyphen, hmonths, hdays, Option.bind_some, h, if_true]
  rfl

theorem fraction_point (h : IsDigits digits) (hrest : EndsDigits rest) :
    fraction ('.' :: (digits ++ rest)) =
      some (decimalValue (digits.take 9) * Nat.pow 10 (9 - digits.length), rest) :=
  bind_of_read (digitsOf_append h hrest) fun digits =>
    pure (decimalValue (digits.take 9) * Nat.pow 10 (9 - digits.length))

theorem fraction_padded {width n : ℕ} (hwidth : 0 < width) (hnine : width ≤ 9)
    (h : n < 10 ^ width) (hrest : EndsDigits rest) :
    fraction ('.' :: ((padded width n).toList ++ rest)) = some (n * 10 ^ (9 - width), rest) := by
  have hlength := length_padded hwidth h
  rw [fraction_point (isDigits_padded width n) hrest, List.take_of_length_le (by omega),
    decimalValue_padded, hlength]
  rfl

theorem fraction_units {width nanos : ℕ} (hwidth : 0 < width) (hnine : width ≤ 9)
    (h : nanos < 10 ^ 9) (hwhole : 10 ^ (9 - width) ∣ nanos) (hrest : EndsDigits rest) :
    fraction ('.' :: ((padded width (nanos / 10 ^ (9 - width))).toList ++ rest)) =
      some (nanos, rest) := by
  have hunits : nanos / 10 ^ (9 - width) < 10 ^ width := by
    apply Nat.div_lt_of_lt_mul
    rwa [← pow_add, Nat.sub_add_cancel hnine]
  rw [fraction_padded hwidth hnine hunits hrest, Nat.div_mul_cancel hwhole]

theorem fraction_fractionText {nanos : ℕ} (h : nanos < 1000000000) (rest : List Char) :
    fraction ((fractionText nanos).toList ++ 'Z' :: rest) = some (nanos, 'Z' :: rest) := by
  have hrest : EndsDigits ('Z' :: rest) := endsDigits_cons (by decide) rest
  have hpoint : ".".toList = ['.'] := rfl
  unfold fractionText
  split
  · rename_i hzero
    rw [hzero]
    rfl
  · split
    · rename_i hmillis
      rw [String.toList_append, hpoint, List.append_assoc, List.singleton_append]
      exact @fraction_units _ 3 nanos (by decide) (by decide) h (Nat.dvd_of_mod_eq_zero hmillis)
        hrest
    · split
      · rename_i hmicros
        rw [String.toList_append, hpoint, List.append_assoc, List.singleton_append]
        exact @fraction_units _ 6 nanos (by decide) (by decide) h (Nat.dvd_of_mod_eq_zero hmicros)
          hrest
      · rw [String.toList_append, hpoint, List.append_assoc, List.singleton_append]
        have hread := @fraction_units _ 9 nanos (by decide) (by decide) h (one_dvd nanos) hrest
        rw [Nat.sub_self, pow_zero, Nat.div_one] at hread
        exact hread

theorem timeOfDay_text {hour minute second nanos : ℕ} (hhour : hour < 24) (hminute : minute < 60)
    (hsecond : second < 60) (hnanos : nanos < 1000000000) (rest : List Char) :
    timeOfDay ((padded 2 hour).toList ++ ':' :: ((padded 2 minute).toList ++
      ':' :: ((padded 2 second).toList ++ ((fractionText nanos).toList ++ 'Z' :: rest)))) =
        some ((hour * 3600 + minute * 60 + second, nanos), 'Z' :: rest) := by
  have hcolon : ∀ text, separator ':' (':' :: text) = some ((), text) :=
    separator_cons (by decide)
  have hpair : ∀ {n : ℕ}, n < 60 → ∀ text, number 2 ((padded 2 n).toList ++ text) =
      some (n, text) := by
    intro n hn text
    exact number_padded (by decide) (by omega) text
  have hleast : min second 59 = second := by omega
  have hleap : second ≠ 60 := by omega
  simp only [timeOfDay, bind_apply, hpair (Nat.lt_trans hhour (by decide)), hcolon, hpair hminute,
    hpair hsecond, fraction_fractionText hnanos, Option.bind_some, hhour, hminute,
    Nat.le_of_lt hsecond, and_self, if_true, hleast, hleap, if_false]
  rfl

end Time

namespace Instant

variable {t : Instant}

theorem toList_isoText (h : t.IsRegular) :
    t.isoText.toList = t.date.text.toList ++ 'T' ::
      ((Text.padded 2 (t.timeOfDay.toNat / 3600)).toList ++ ':' ::
        ((Text.padded 2 (t.timeOfDay.toNat / 60 % 60)).toList ++ ':' ::
          ((Text.padded 2 (t.timeOfDay.toNat % 60)).toList ++
            ((Time.fractionText t.nanos).toList ++ ['Z'])))) := by
  simp [isoText, clockText, inLeapSecond_of_isRegular h]

theorem timeOfDay_parts (t : Instant) :
    (t.timeOfDay.toNat / 3600 * 3600 + t.timeOfDay.toNat / 60 % 60 * 60 +
      t.timeOfDay.toNat % 60 : ℕ) = t.timeOfDay.toNat ∧ t.timeOfDay.toNat < 86400 := by
  have hlow := t.timeOfDay_nonneg
  have hhigh := t.timeOfDay_lt
  omega

/-- Every instant of the calendar outside leap seconds is read back from its text. -/
theorem parse?_isoText (hrange : t.inRange = true) (h : t.IsRegular) :
    parse? t.isoText = some t := by
  obtain ⟨hparts, hlt⟩ := t.timeOfDay_parts
  obtain ⟨hmonth, hday⟩ := t.date_bounds
  have hdate := Time.date_text t.date_isValid hmonth hday
  have hclock := @Time.timeOfDay_text (t.timeOfDay.toNat / 3600) (t.timeOfDay.toNat / 60 % 60)
    (t.timeOfDay.toNat % 60) t.nanos (by omega) (by omega) (by omega) h []
  have hseconds : t.date.toDays * secondsPerDay + (t.timeOfDay.toNat : ℤ) = t.seconds := by
    rw [Int.toNat_of_nonneg t.timeOfDay_nonneg]
    exact t.toDays_date
  have hread : Time.instant t.isoText.toList = some (t, []) := by
    rw [toList_isoText h]
    have hend : ∀ text, Time.dateEnd ('T' :: text) = some ((), text) := fun _ => rfl
    have hskip : Time.skipBlanks ['Z'] = some ((), ['Z']) := rfl
    have hoffset : Time.offset ['Z'] = some (0, []) := rfl
    have hnil : Time.skipBlanks [] = some ((), []) := rfl
    rw [hparts] at hclock
    simp only [Time.instant, Time.bind_apply, hdate, hend, hclock, hskip, hoffset, hnil,
      Option.bind_some, hseconds, Int.sub_zero]
    rw [if_pos ⟨hrange, hrange, by decide, by decide⟩]
    rfl
  rw [parse?, hread]

end Instant

end CertRotation
