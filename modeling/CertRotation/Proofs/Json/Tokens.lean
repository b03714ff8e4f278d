import CertRotation.Json.Reader
import CertRotation.Json.Writer
import CertRotation.Proofs.Text.Decimal

namespace CertRotation

namespace Json

theorem hexValue?_hexDigit : ∀ n < 16, Octets.hexValue? (Octets.hexDigit n) = some n := by decide

section text

variable {c : Char} (rest : List Char)

theorem readText?_letter {letter : Char} (h : escaped? letter = some c) :
    readText? ('\\' :: letter :: rest) = (readText? rest).map (prepend c) := by
  have hletter : letter ≠ 'u' := by
    rintro rfl
    cases h
  rw [readText?.eq_4 letter rest fun _ _ _ _ _ hu => absurd hu hletter, h]
  exact Option.map_eq_bind.symm

theorem readText?_control (h : c < ' ') :
    readText? ('\\' :: 'u' :: '0' :: '0' :: Octets.hexDigit (c.toNat / 16) ::
      Octets.hexDigit (c.toNat % 16) :: rest) = (readText? rest).map (prepend c) := by
  have hsmall : c.toNat < 32 := h
  have hunit : hex4? '0' '0' (Octets.hexDigit (c.toNat / 16)) (Octets.hexDigit (c.toNat % 16)) =
      some c.toNat := by
    have hhigh := hexValue?_hexDigit (c.toNat / 16) (by omega)
    have hlow := hexValue?_hexDigit (c.toNat % 16) (by omega)
    have hzero : Octets.hexValue? '0' = some 0 := by decide
    simp only [hex4?, hzero, hhigh, hlow, Option.pure_def, Option.bind_eq_bind, Option.bind_some,
      Option.some.injEq]
    omega
  rw [readText?.eq_3, hunit]
  have hwhole : c.toNat < 0xD800 ∨ 0xDFFF < c.toNat := by omega
  simp only [Option.bind_eq_bind, Option.bind_some, if_pos hwhole, Char.ofNat_toNat]
  exact Option.map_eq_bind.symm

theorem readText?_plain (hcontrol : ¬c < ' ') (hquote : c ≠ '"') (hslash : c ≠ '\\') :
    readText? (c :: rest) = (readText? rest).map (prepend c) := by
  rw [readText?.eq_5 c rest hquote (fun _ _ _ _ _ h => absurd h hslash)
    (fun _ _ h => absurd h hslash), if_neg (by simp [hcontrol, hslash])]
  exact Option.map_eq_bind.symm

theorem readText?_escape (c : Char) (rest : List Char) :
    readText? (escape c ++ rest) = (readText? rest).map (prepend c) := by
  unfold escape
  split
  case h_8 hquote hslash _ _ _ _ _ =>
    split
    · rename_i hcontrol
      exact readText?_control rest hcontrol
    · rename_i hcontrol
      exact readText?_plain rest hcontrol hquote hslash
  all_goals exact readText?_letter rest rfl

theorem readText?_flatMap_escape (chars rest : List Char) :
    readText? (chars.flatMap escape ++ '"' :: rest) = some (some chars, rest) := by
  induction chars with
  | nil => rw [List.flatMap_nil, List.nil_append, readText?]
  | cons c chars ih =>
      rw [List.flatMap_cons, List.append_assoc, readText?_escape, ih]
      rfl

end text

end Json

/-- A number as JSON allows it to be written. -/
structure JsonNumber.IsProper (n : JsonNumber) : Prop where
  integer : Text.IsDigits n.integer
  leading : n.integer.head? = some '0' → n.integer = ['0']
  fraction : ∀ digits, n.fraction = some digits → Text.IsDigits digits
  exponent : ∀ negative digits, n.exponent = some (negative, digits) → Text.IsDigits digits

/-- The part of a number from the point on. -/
def JsonNumber.fractionText : Option (List Char) → List Char
  | none => []
  | some digits => '.' :: digits

def JsonNumber.exponentText : Option (Bool × List Char) → List Char
  | none => []
  | some (negative, digits) => 'e' :: ((if negative then ['-'] else []) ++ digits)

theorem JsonNumber.text_eq (n : JsonNumber) :
    n.text = (if n.negative then ['-'] else []) ++ n.integer ++ fractionText n.fraction ++
      exponentText n.exponent := rfl

namespace Json

/-- What can follow a value: nothing that could belong to a number. -/
def Ends (rest : List Char) : Prop :=
  ∀ c, rest.head? = some c → Text.isDigit c = false ∧ c ≠ '.' ∧ c ≠ 'e' ∧ c ≠ 'E'

section number

variable {digits rest : List Char}

theorem readDigits?_append (h : Text.IsDigits digits)
    (hrest : ∀ c, rest.head? = some c → Text.isDigit c = false) :
    readDigits? (digits ++ rest) = some (digits, rest) := by
  have htake : (digits ++ rest).takeWhile Text.isDigit = digits := by
    rw [List.takeWhile_append_of_pos h.all]
    rcases rest with _ | ⟨c, rest⟩
    · rw [List.takeWhile_nil, List.append_nil]
    · rw [List.takeWhile_cons_of_neg (by simp [hrest c rfl]), List.append_nil]
  simp only [readDigits?, htake, if_neg h.ne_nil, List.drop_left]

/-- Reads the part of a number before the point. -/
def readInteger? : List Char → Option (List Char × List Char)
  | '0' :: rest => some (['0'], rest)
  | text => readDigits? text

/-- Reads the part of a number from the point on. -/
def readFraction? : List Char → Option (Option (List Char) × List Char)
  | '.' :: rest => (readDigits? rest).map fun (digits, rest) => (some digits, rest)
  | text => some (none, text)

def readExponent? (text : List Char) : Option (Option (Bool × List Char) × List Char) :=
  if text.head? = some 'e' ∨ text.head? = some 'E' then
    let rest := text.drop 1
    let signed := rest.head? = some '+' ∨ rest.head? = some '-'
    (readDigits? (if signed then rest.drop 1 else rest)).map fun (digits, after) =>
      (some (rest.head? == some '-', digits), after)
  else some (none, text)

def readSign : List Char → Bool × List Char
  | '-' :: rest => (true, rest)
  | text => (false, text)

theorem readExponent?_bind (text : List Char)
    (next : Option (Bool × List Char) × List Char → Option (JsonNumber × List Char)) :
    readExponent? text >>= next =
      if text.head? = some 'e' ∨ text.head? = some 'E' then
        let rest := text.drop 1
        let signed := rest.head? = some '+' ∨ rest.head? = some '-'
        ((readDigits? (if signed then rest.drop 1 else rest)).map fun (digits, after) =>
          (some (rest.head? == some '-', digits), after)) >>= next
      else some (none, text) >>= next := by
  unfold readExponent?
  split
  · rfl
  · rfl

theorem readFraction?_bind (text : List Char)
    (next : Option (List Char) × List Char → Option (JsonNumber × List Char)) :
    readFraction? text >>= next = match text with
      | '.' :: rest => ((readDigits? rest).map fun (digits, rest) => (some digits, rest)) >>= next
      | _ => some (none, text) >>= next := by
  split
  · rfl
  · rename_i hpoint
    rw [readFraction?.eq_2 text hpoint]

theorem readInteger?_bind (text : List Char)
    (next : List Char × List Char → Option (JsonNumber × List Char)) :
    readInteger? text >>= next = match text with
      | '0' :: rest => some (['0'], rest) >>= next
      | _ => readDigits? text >>= next := by
  split
  · rfl
  · rename_i hzero
    rw [readInteger?.eq_2 text hzero]

theorem readNumber?_eq (text : List Char) : readNumber? text = do
    let (integer, rest) ← readInteger? (readSign text).2
    let (fraction, rest) ← readFraction? rest
    let (exponent, rest) ← readExponent? rest
    return (⟨(readSign text).1, integer, fraction, exponent⟩, rest) := by
  unfold readNumber?
  split
  rename_i negative rest hsign
  have hsign' : readSign text = (negative, rest) := by
    rw [← hsign]
    split
    · rfl
    · rename_i hminus
      rw [readSign.eq_2 text hminus]
  rw [hsign']
  refine (readInteger?_bind rest _).symm.trans (congrArg (readInteger? rest >>= ·) ?_)
  ext1 ⟨integer, rest⟩
  refine (readFraction?_bind rest _).symm.trans (congrArg (readFraction? rest >>= ·) ?_)
  ext1 ⟨fraction, rest⟩
  exact (readExponent?_bind rest _).symm

theorem Ends.not_isDigit (h : Ends rest) : ∀ c, rest.head? = some c → Text.isDigit c = false :=
  fun c hc => (h c hc).1

theorem isDigit_ne {c d : Char} (h : Text.isDigit c = true) (hd : Text.isDigit d = false) :
    c ≠ d := by
  rintro rfl
  rw [h] at hd
  cases hd

theorem readSign_append {integer : List Char} (h : Text.IsDigits integer) (negative : Bool)
    (rest : List Char) :
    readSign ((if negative then ['-'] else []) ++ integer ++ rest) =
      (negative, integer ++ rest) := by
  cases negative with
  | true => rfl
  | false =>
      refine readSign.eq_2 _ fun rest' heq => ?_
      rcases integer with _ | ⟨c, integer⟩
      · exact h.ne_nil rfl
      · cases heq
        exact absurd (h.all '-' List.mem_cons_self) (by decide)

theorem readInteger?_append {integer : List Char} (h : Text.IsDigits integer)
    (hleading : integer.head? = some '0' → integer = ['0'])
    (hrest : ∀ c, rest.head? = some c → Text.isDigit c = false) :
    readInteger? (integer ++ rest) = some (integer, rest) := by
  by_cases hzero : integer.head? = some '0'
  · rw [hleading hzero]
    rfl
  · rw [readInteger?.eq_2, readDigits?_append h hrest]
    rintro rest' heq
    rcases integer with _ | ⟨c, integer⟩
    · exact h.ne_nil rfl
    · cases heq
      exact hzero rfl

theorem readFraction?_append {fraction : Option (List Char)}
    (h : ∀ digits, fraction = some digits → Text.IsDigits digits)
    (hrest : ∀ c, rest.head? = some c → Text.isDigit c = false ∧ c ≠ '.') :
    readFraction? (JsonNumber.fractionText fraction ++ rest) = some (fraction, rest) := by
  cases fraction with
  | none =>
      refine readFraction?.eq_2 _ fun rest' heq => ?_
      exact (hrest '.' (congrArg List.head? heq)).2 rfl
  | some digits =>
      rw [JsonNumber.fractionText, List.cons_append, readFraction?,
        readDigits?_append (h digits rfl) fun c hc => (hrest c hc).1]
      rfl

theorem readExponent?_append {exponent : Option (Bool × List Char)}
    (h : ∀ negative digits, exponent = some (negative, digits) → Text.IsDigits digits)
    (hrest : Ends rest) :
    readExponent? (JsonNumber.exponentText exponent ++ rest) = some (exponent, rest) := by
  cases exponent with
  | none =>
      rw [JsonNumber.exponentText, List.nil_append, readExponent?, if_neg]
      rintro (he | he)
      · exact (hrest _ he).2.2.1 rfl
      · exact (hrest _ he).2.2.2 rfl
  | some exponent =>
      obtain ⟨negative, digits⟩ := exponent
      have hdigits := h negative digits rfl
      have hread := readDigits?_append hdigits hrest.not_isDigit
      cases negative with
      | true =>
          simp only [JsonNumber.exponentText, readExponent?, List.cons_append, List.head?_cons,
            true_or, if_true, List.drop_one, List.tail_cons, or_true, List.nil_append, hread]
          rfl
      | false =>
          rcases digits with _ | ⟨c, digits⟩
          · exact absurd rfl hdigits.ne_nil
          have hc := hdigits.all c List.mem_cons_self
          have hplus : c ≠ '+' := isDigit_ne hc (by decide)
          have hminus : c ≠ '-' := isDigit_ne hc (by decide)
          rw [List.cons_append] at hread
          simp [JsonNumber.exponentText, readExponent?, hplus, hminus, hread]

theorem readNumber?_text {n : JsonNumber} (h : n.IsProper) (hrest : Ends rest) :
    readNumber? (n.text ++ rest) = some (n, rest) := by
  have hafter : ∀ c, (JsonNumber.exponentText n.exponent ++ rest).head? = some c →
      Text.isDigit c = false ∧ c ≠ '.' := by
    intro c hc
    rcases hexponent : n.exponent with _ | ⟨negative, digits⟩
    · rw [hexponent] at hc
      exact ⟨(hrest c hc).1, (hrest c hc).2.1⟩
    · rw [hexponent] at hc
      cases hc
      decide
  have hbehind : ∀ c, (JsonNumber.fractionText n.fraction ++
      (JsonNumber.exponentText n.exponent ++ rest)).head? = some c → Text.isDigit c = false := by
    intro c hc
    rcases hfraction : n.fraction with _ | digits
    · rw [hfraction] at hc
      exact (hafter c hc).1
    · rw [hfraction] at hc
      cases hc
      decide
  rw [JsonNumber.text_eq, List.append_assoc, List.append_assoc, readNumber?_eq,
    readSign_append h.integer]
  simp only [readInteger?_append h.integer h.leading hbehind,
    readFraction?_append h.fraction hafter, readExponent?_append h.exponent hrest,
    Option.bind_eq_bind, Option.bind_some]
  rfl

end number

end Json

end CertRotation
