import CertRotation.Asn1.Tolerant
import CertRotation.Proofs.Octets

namespace CertRotation.Asn1

open Octets

theorem length_encodeLength {n : Nat} (rest : Octets) :
    Tolerant.length (encodeLength n ++ rest) = if n < 2 ^ 64 then some (n, rest) else none := by
  by_cases hshort : n < 128
  · have hsmall : n < 2 ^ 64 := by omega
    have hfirst : (UInt8.ofNat n).toNat = n := by
      rw [UInt8.toNat_ofNat']
      omega
    have hlt : UInt8.ofNat n < 128 := by
      rw [UInt8.lt_iff_toNat_lt, hfirst]
      exact hshort
    rw [if_pos hsmall]
    simp [encodeLength, hshort, Tolerant.length, hlt, hfirst]
  · have hlong : encodeLength n ++ rest =
        UInt8.ofNat (128 + min (width n) 127) :: (minimal n ++ rest) := by
      simp [encodeLength, hshort]
    have hfirst : (UInt8.ofNat (128 + min (width n) 127)).toNat = 128 + min (width n) 127 := by
      rw [UInt8.toNat_ofNat']
      omega
    have hge : ¬ UInt8.ofNat (128 + min (width n) 127) < 128 := by
      rw [UInt8.lt_iff_toNat_lt, hfirst]
      simp
    have hpos : 0 < width n := width_pos (by omega)
    rw [hlong]
    simp only [Tolerant.length, hge, if_false, hfirst, Nat.add_sub_cancel_left]
    by_cases hsmall : n < 2 ^ 64
    · have hwidth : width n ≤ 8 := width_le_of_lt_pow (by simpa using hsmall)
      have hmin : min (width n) 127 = width n := by omega
      have htake : (minimal n ++ rest).take (width n) = minimal n := by
        rw [← length_minimal, List.take_left]
      have hdrop : (minimal n ++ rest).drop (width n) = rest := by
        rw [← length_minimal, List.drop_left]
      have hvalue : ¬ n ≥ Nat.pow 2 64 := by
        change ¬ 2 ^ 64 ≤ n
        omega
      have hcount : ¬ (width n = 0 ∨ width n = 127 ∨ (minimal n ++ rest).length < width n ∨
          n ≥ Nat.pow 2 64) := by
        simp only [List.length_append, length_minimal]
        omega
      simp only [hmin, htake, hdrop, value_minimal, hcount, if_false, hsmall, if_true]
    · have hcount : min (width n) 127 = 127 ∨ min (width n) 127 = width n := by omega
      rw [if_neg hsmall]
      rcases hcount with hcount | hcount
      · simp [hcount]
      · have htake : (minimal n ++ rest).take (width n) = minimal n := by
          rw [← length_minimal, List.take_left]
        have hvalue : n ≥ Nat.pow 2 64 := by
          change 2 ^ 64 ≤ n
          omega
        simp [hcount, htake, hvalue]

@[simp] theorem liftM_apply {α : Type} (value : Option α) (text : Octets) :
    (liftM value : Reader α) text = value.map (·, text) := by
  cases value <;> rfl

namespace Tolerant

/-- An element with a one-octet tag, as it is read. -/
def elementOf (tag : UInt8) (contents : Octets) : Element :=
  ⟨tagClass tag, tag.toNat / 32 % 2 = 1, tag.toNat % 32, contents⟩

theorem header_encode {tag : UInt8} (htag : tag.toNat % 32 ≠ 31) (contents rest : Octets) :
    header (encode tag contents ++ rest) =
      if contents.length < 2 ^ 64 then
        some ((elementOf tag [], contents.length), contents ++ rest)
      else none := by
  have htext : encode tag contents ++ rest =
      tag :: (encodeLength contents.length ++ (contents ++ rest)) := by
    simp [encode]
  rw [htext]
  simp only [header, htag, if_false, Option.bind_eq_bind, Option.bind_some, length_encodeLength]
  split
  · rfl
  · rfl

theorem element_encode {tag : UInt8} (htag : tag.toNat % 32 ≠ 31) (contents rest : Octets) :
    element (encode tag contents ++ rest) =
      if contents.length < 2 ^ 64 then some (elementOf tag contents, rest) else none := by
  rw [element, header_encode htag]
  split
  · simp [elementOf]
  · rfl

end Tolerant

end CertRotation.Asn1
