import CertRotation.Asn1.Strict
import CertRotation.Proofs.Asn1.Reads

namespace CertRotation.Asn1.Strict

open Octets

theorem length_encodeLength {n : Nat} (hlimit : n < lengthLimit) (rest : Octets) :
    length (encodeLength n ++ rest) = some (n, rest) := by
  have hlimit' : n < 256 ^ 4 := Nat.lt_trans hlimit (by decide)
  by_cases hshort : n < 128
  · have hfirst : (UInt8.ofNat n).toNat = n := by
      rw [UInt8.toNat_ofNat']
      omega
    have hlt : UInt8.ofNat n < 128 := by
      rw [UInt8.lt_iff_toNat_lt, hfirst]
      exact hshort
    have hcount : n - 128 = 0 := by omega
    have hencode : encodeLength n = [UInt8.ofNat n] := by simp [encodeLength, hshort]
    simp [hencode, length, hfirst, hlt, hcount, hlimit]
  · have hwidth : width n ≤ 4 := width_le_of_lt_pow hlimit'
    have hmin : min (width n) 127 = width n := by omega
    have hencode : encodeLength n = UInt8.ofNat (128 + width n) :: minimal n := by
      simp [encodeLength, hshort, hmin]
    have hfirst : (UInt8.ofNat (128 + width n)).toNat = 128 + width n := by
      rw [UInt8.toNat_ofNat']
      omega
    have hge : ¬UInt8.ofNat (128 + width n) < 128 := by
      rw [UInt8.lt_iff_toNat_lt, hfirst]
      simp
    have htake : (minimal n ++ rest).take (width n) = minimal n := by
      rw [← length_minimal, List.take_left]
    have hdrop : (minimal n ++ rest).drop (width n) = rest := by
      rw [← length_minimal, List.drop_left]
    rw [hencode, List.cons_append]
    simp only [length, hfirst, hge, if_false, Nat.add_sub_cancel_left, htake, hdrop, value_minimal,
      hlimit, hencode, and_self, if_true]

theorem length_encodeLength_of_le {n : Nat} (hlimit : lengthLimit ≤ n) (rest : Octets) :
    length (encodeLength n ++ rest) = none := by
  have hlong : ¬n < 128 := Nat.not_lt.mpr (Nat.le_trans (by decide) hlimit)
  have hfirst : (UInt8.ofNat (128 + min (width n) 127)).toNat = 128 + min (width n) 127 := by
    rw [UInt8.toNat_ofNat']
    omega
  have hge : ¬UInt8.ofNat (128 + min (width n) 127) < 128 := by
    rw [UInt8.lt_iff_toNat_lt, hfirst]
    simp
  have htext : encodeLength n ++ rest =
      UInt8.ofNat (128 + min (width n) 127) :: (minimal n ++ rest) := by
    simp [encodeLength, hlong]
  rw [htext, length]
  simp only [hfirst, hge, if_false, Nat.add_sub_cancel_left]
  -- A number below the limit whose form begins alike has as many digits, and so the same ones.
  refine if_neg ?_
  rintro ⟨hsmall, hform⟩
  generalize hfound : value ((minimal n ++ rest).take (min (width n) 127)) = found at hsmall hform
  have hwidth : width found ≤ 4 := width_le_of_lt_pow (Nat.lt_trans hsmall (by decide))
  have hdigits : min (width n) 127 = width found := by
    unfold encodeLength at hform
    split at hform
    · rename_i hshort
      have hhead := congrArg UInt8.toNat (List.cons.inj hform).1
      rw [hfirst, UInt8.toNat_ofNat'] at hhead
      omega
    · have hhead := congrArg UInt8.toNat (List.cons.inj hform).1
      rw [hfirst, UInt8.toNat_ofNat', length_minimal] at hhead
      omega
  have hsame : min (width n) 127 = width n := by omega
  have htake : (minimal n ++ rest).take (width n) = minimal n := by
    rw [← length_minimal, List.take_left]
  rw [hsame, htake, value_minimal] at hfound
  omega

variable {tag : UInt8} {contents : Octets}

theorem reads_element (htag : isTag tag = true) (hlimit : contents.length < lengthLimit) :
    Reads element (encode tag contents) (tag, contents) := by
  intro rest
  have htext : encode tag contents ++ rest =
      tag :: (encodeLength contents.length ++ (contents ++ rest)) := by
    simp [encode]
  rw [htext]
  simp [element, length_encodeLength hlimit, htag]

theorem reads_tagged (htag : isTag tag = true) (hlimit : contents.length < lengthLimit) :
    Reads (tagged tag) (encode tag contents) contents := by
  intro rest
  rw [tagged, bind_apply, reads_element htag hlimit]
  simp

theorem tagged_encode_of_le (hlimit : lengthLimit ≤ contents.length) (rest : Octets) :
    tagged tag (encode tag contents ++ rest) = none := by
  have htext : encode tag contents ++ rest =
      tag :: (encodeLength contents.length ++ (contents ++ rest)) := by
    simp [encode]
  rw [tagged, bind_apply, htext, element, length_encodeLength_of_le hlimit]
  rfl

theorem whole_eq {α : Type} {body : Reader α} {text : Octets} {value : α}
    (h : Reads body text value) : whole body text = some value := by
  rw [whole, h.apply_self]

theorem reads_sequence {α : Type} {body : Reader α} {elements : List Octets} {value : α}
    (hlimit : elements.flatten.length < lengthLimit)
    (hbody : whole body elements.flatten = some value) :
    Reads (Strict.sequence body) (Asn1.sequence elements) value := by
  intro rest
  have htagged : Reads (tagged 0x30) (Asn1.sequence elements) elements.flatten :=
    reads_tagged (by decide) hlimit
  rw [Strict.sequence, bind_apply, htagged]
  simp [hbody]

theorem reads_natural {n : Nat} (hlimit : (naturalContents n).length < lengthLimit) :
    Reads Strict.natural (Asn1.natural n) n := by
  intro rest
  have htagged : Reads (tagged 0x02) (Asn1.natural n) (naturalContents n) :=
    reads_tagged (by decide) hlimit
  rw [Strict.natural, bind_apply, htagged]
  simp [naturalContents?]

theorem reads_octetString (hlimit : contents.length < lengthLimit) :
    Reads Strict.octetString (Asn1.octetString contents) contents :=
  reads_tagged (by decide) hlimit

theorem reads_bitString (hlimit : contents.length + 1 < lengthLimit) :
    Reads Strict.bitString (Asn1.bitString contents) contents := by
  intro rest
  have htagged : Reads (tagged 0x03) (Asn1.bitString contents) (0 :: contents) :=
    reads_tagged (by decide) hlimit
  rw [Strict.bitString, bind_apply, htagged]
  rfl

theorem explicit_append_eq (rest : Octets) :
    explicit 1 contents ++ rest = 0xa1 :: (encodeLength contents.length ++ (contents ++ rest)) := by
  have htag : UInt8.ofNat (0xa0 + 1) = 0xa1 := by decide
  simp [explicit, encode, htag]

theorem explicit?_zero_of_one (rest : Octets) :
    explicit? 0 (explicit 1 contents ++ rest) = some (none, explicit 1 contents ++ rest) := by
  have hknown : isTag 0xa1 = true := by decide
  have hlater : (0xa1 : UInt8) < 0x80 ∨ 0xc0 ≤ (0xa1 : UInt8) ∨ (0xa1 : UInt8).toNat % 32 > 0 := by
    decide
  rw [explicit_append_eq, explicit?, List.length_cons, field?]
  simp only [hknown, Bool.not_true, Bool.false_eq_true, if_false, if_pos hlater]
  rfl

theorem reads_explicit_one (hlimit : contents.length < lengthLimit) :
    Reads (explicit? 1) (explicit 1 contents) (some contents) := by
  intro rest
  have helement := @reads_element 0xa1 contents (by decide) hlimit rest
  have hknown : isTag 0xa1 = true := by decide
  have hfield : ¬((0xa1 : UInt8) < 0x80 ∨ 0xc0 ≤ (0xa1 : UInt8) ∨
      (0xa1 : UInt8).toNat % 32 > 1) := by
    decide
  have htext : encode 0xa1 contents ++ rest =
      0xa1 :: (encodeLength contents.length ++ (contents ++ rest)) := by
    simp [encode]
  rw [htext] at helement
  rw [explicit_append_eq, explicit?, List.length_cons, field?]
  simp only [hknown, Bool.not_true, Bool.false_eq_true, if_false, if_neg hfield, helement,
    Option.bind_eq_bind, Option.bind_some]
  rfl

theorem lengthLimit_eq : lengthLimit = 268435456 := by decide

theorem length_encode_le (tag : UInt8) (h : contents.length < 65536) :
    (encode tag contents).length ≤ contents.length + 4 := by
  have hlength : (encodeLength contents.length).length ≤ 3 := by
    unfold encodeLength
    split
    · simp
    · have := @width_le_of_lt_pow contents.length 2 h
      simp only [List.length_cons, length_minimal]
      omega
  rw [encode, List.length_cons, List.length_append]
  omega

theorem length_natural_le {n : Nat} (h : width n < 65535) :
    (Asn1.natural n).length ≤ width n + 5 := by
  have hcontents : (naturalContents n).length ≤ width n + 1 := by
    rw [← length_minimal]
    unfold naturalContents
    cases minimal n with
    | nil => simp
    | cons first rest =>
        simp only
        split
        · simp
        · simp
  have hencode := @length_encode_le (naturalContents n) 0x02 (by omega)
  rw [Asn1.natural]
  omega

theorem reads_natural_of_width {n : Nat} (h : width n < 65535) :
    Reads Strict.natural (Asn1.natural n) n := by
  have hle := length_natural_le h
  have hlt := length_lt_encode 0x02 (naturalContents n)
  rw [Asn1.natural] at hle
  exact reads_natural (by
    rw [lengthLimit_eq]
    omega)

end CertRotation.Asn1.Strict
