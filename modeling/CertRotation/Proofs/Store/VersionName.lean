import CertRotation.Proofs.Store.Layout

namespace CertRotation

theorem utf8ByteSize_ofList_of_ascii {chars : List Char} (h : ∀ c ∈ chars, c.utf8Size = 1) :
    (String.ofList chars).utf8ByteSize = chars.length := by
  induction chars with
  | nil => rfl
  | cons c rest ih =>
      rw [String.ofList_cons, String.utf8ByteSize_append, String.utf8ByteSize_singleton,
        ih fun d hd => h d (List.mem_cons_of_mem c hd), h c List.mem_cons_self, List.length_cons,
        Nat.add_comm]

namespace Octets

theorem hexDigit_plain {n : Nat} (h : n < 16) :
    (hexDigit n).utf8Size = 1 ∧ hexDigit n ≠ '/' := by
  revert n
  decide

theorem toList_hex (bytes : Octets) :
    (hex bytes).toList =
      bytes.flatMap fun byte => [hexDigit (byte.toNat / 16), hexDigit (byte.toNat % 16)] := by
  rw [hex, String.toList_ofList]

theorem length_toList_hex (bytes : Octets) : (hex bytes).toList.length = 2 * bytes.length := by
  rw [toList_hex]
  induction bytes with
  | nil => rfl
  | cons byte rest ih =>
      rw [List.flatMap_cons, List.length_append, ih, List.length_cons]
      simp only [List.length_cons, List.length_nil]
      omega

theorem plain_of_mem_hex {bytes : Octets} {c : Char} (h : c ∈ (hex bytes).toList) :
    c.utf8Size = 1 ∧ c ≠ '/' := by
  rw [toList_hex, List.mem_flatMap] at h
  obtain ⟨byte, -, hmem⟩ := h
  have hlt := byte.toNat_lt
  simp only [List.mem_cons, List.not_mem_nil, or_false] at hmem
  rcases hmem with rfl | rfl
  · exact hexDigit_plain (by omega)
  · exact hexDigit_plain (by omega)

end Octets

namespace DirectoryStore

theorem toList_versionName (random : Octets) :
    (versionName random).toList = '.' :: '.' :: (Octets.hex random).toList := by
  rw [versionName, String.toList_append]
  rfl

theorem isVersionName_versionName {random : Octets} (h : random.length = 16) :
    IsVersionName (versionName random) := by
  have hlength : (versionName random).toList.length = 34 := by
    rw [toList_versionName, List.length_cons, List.length_cons, Octets.length_toList_hex, h]
  have hne : ∀ text : String, text.toList.length < 34 → versionName random ≠ text := by
    rintro text hlt rfl
    omega
  have hplain : ∀ c ∈ (versionName random).toList, c.utf8Size = 1 ∧ c ≠ '/' := by
    intro c hmem
    rw [toList_versionName] at hmem
    rcases List.mem_cons.mp hmem with rfl | hmem
    · decide
    rcases List.mem_cons.mp hmem with rfl | hmem
    · decide
    · exact Octets.plain_of_mem_hex hmem
  have hsize : (versionName random).utf8ByteSize = 34 := by
    rw [← @String.ofList_toList (versionName random),
      utf8ByteSize_ofList_of_ascii fun c hmem => (hplain c hmem).1, hlength]
  constructor
  · constructor
    · exact hne "" (by decide)
    · intro hmem
      exact (hplain '/' hmem).2 rfl
    · exact hne "." (by decide)
    · exact hne ".." (by decide)
    · rw [hsize]
      decide
  · intro hmem
    have hshort : ∀ name ∈ fixedNames, name.toList.length < 34 := by decide
    exact hne _ (hshort _ hmem) rfl

end DirectoryStore

end CertRotation
