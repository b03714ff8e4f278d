import CertRotation.Text.Base64

namespace CertRotation.Base64

theorem digitValue?_digit {n : Nat} (h : n < 64) : digitValue? (digit n) = some n := by
  have hall : ∀ n : Fin 64, digitValue? (digit n) = some (n : Nat) := by decide
  exact hall ⟨n, h⟩

theorem digit_ne_pad {n : Nat} (h : n < 64) : digit n ≠ '=' := by
  have hall : ∀ n : Fin 64, digit n ≠ '=' := by decide
  exact hall ⟨n, h⟩

theorem decode?_group {a b c d : Char} {x y z w : Nat} (ha : digitValue? a = some x)
    (hb : digitValue? b = some y) (hc : digitValue? c = some z) (hd : digitValue? d = some w)
    (hpad : d ≠ '=') (rest : List Char) :
    decode? (a :: b :: c :: d :: rest) = (decode? rest).map fun bytes =>
      UInt8.ofNat (x * 4 + y / 16) :: UInt8.ofNat (y % 16 * 16 + z / 4) ::
        UInt8.ofNat (z % 4 * 64 + w) :: bytes := by
  rw [decode?.eq_3 a b c d rest fun h _ => hpad h]
  simp only [ha, hb, hc, hd, Option.bind_eq_bind, Option.bind_some]
  cases decode? rest <;> rfl

@[simp] theorem decode?_encode (bytes : Octets) : decode? (encode bytes) = some bytes := by
  have hback : ∀ (byte : UInt8) (n : Nat), n = byte.toNat → UInt8.ofNat n = byte := by
    rintro byte _ rfl
    exact UInt8.ofNat_toNat
  have hbound : ∀ byte : UInt8, byte.toNat < 256 := fun byte => byte.toNat_lt
  induction bytes using encode.induct with
  | case1 => rfl
  | case2 a =>
      have ha := hbound a
      have hlow : a.toNat * 16 % 64 % 16 = 0 := by omega
      simp only [encode, decode?, decodePadded?, Option.bind_eq_bind,
        digitValue?_digit (show a.toNat * 16 / 64 < 64 by omega),
        digitValue?_digit (show a.toNat * 16 % 64 < 64 by omega), Option.bind_some, if_true, hlow]
      rw [hback a _ (by omega)]
      rfl
  | case3 a b =>
      have ha := hbound a
      have hb := hbound b
      have hlow : (a.toNat * 256 + b.toNat) * 4 % 64 % 4 = 0 := by omega
      have hpad := digit_ne_pad (show (a.toNat * 256 + b.toNat) * 4 % 64 < 64 by omega)
      simp only [encode, decode?, decodePadded?, Option.bind_eq_bind,
        digitValue?_digit (show (a.toNat * 256 + b.toNat) * 4 / 4096 < 64 by omega),
        digitValue?_digit (show (a.toNat * 256 + b.toNat) * 4 / 64 % 64 < 64 by omega),
        digitValue?_digit (show (a.toNat * 256 + b.toNat) * 4 % 64 < 64 by omega),
        Option.bind_some, hpad, if_false, if_true, hlow]
      rw [hback a _ (by omega), hback b _ (by omega)]
      rfl
  | case4 a b c rest ih =>
      have ha := hbound a
      have hb := hbound b
      have hc := hbound c
      rw [encode, decode?_group (digitValue?_digit (by omega)) (digitValue?_digit (by omega))
        (digitValue?_digit (by omega)) (digitValue?_digit (by omega)) (digit_ne_pad (by omega)), ih]
      rw [Option.map_some, hback a _ (by omega), hback b _ (by omega), hback c _ (by omega)]

/-- Whether a character stands in written text: it is visible ASCII, but no dash. -/
def isDataChar (c : Char) : Bool := 33 ≤ c.toNat && c.toNat < 128 && c != '-'

theorem isDataChar_digit {n : Nat} (h : n < 64) : isDataChar (digit n) = true := by
  have hall : ∀ n : Fin 64, isDataChar (digit n) = true := by decide
  exact hall ⟨n, h⟩

theorem isDataChar_of_mem_encode {bytes : Octets} {c : Char} (h : c ∈ encode bytes) :
    isDataChar c = true := by
  have hpad : isDataChar '=' = true := by decide
  have hbound : ∀ byte : UInt8, byte.toNat < 256 := fun byte => byte.toNat_lt
  induction bytes using encode.induct with
  | case1 => simp [encode] at h
  | case2 a =>
      have ha := hbound a
      simp only [encode, List.mem_cons, List.not_mem_nil, or_false] at h
      rcases h with rfl | rfl | rfl | rfl
      · exact isDataChar_digit (by omega)
      · exact isDataChar_digit (by omega)
      · exact hpad
      · exact hpad
  | case3 a b =>
      have ha := hbound a
      have hb := hbound b
      simp only [encode, List.mem_cons, List.not_mem_nil, or_false] at h
      rcases h with rfl | rfl | rfl | rfl
      · exact isDataChar_digit (by omega)
      · exact isDataChar_digit (by omega)
      · exact isDataChar_digit (by omega)
      · exact hpad
  | case4 a b c' rest ih =>
      have ha := hbound a
      have hb := hbound b
      have hc := hbound c'
      simp only [encode, List.mem_cons] at h
      rcases h with rfl | rfl | rfl | rfl | h
      · exact isDataChar_digit (by omega)
      · exact isDataChar_digit (by omega)
      · exact isDataChar_digit (by omega)
      · exact isDataChar_digit (by omega)
      · exact ih h

end CertRotation.Base64
