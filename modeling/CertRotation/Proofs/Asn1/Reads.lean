import CertRotation.Asn1.Oid
import CertRotation.Proofs.Asn1.Element

namespace CertRotation.Asn1

open Octets

/-- A reader takes a text off the front of every longer text and gives a value. -/
def Reads {α : Type} (read : Reader α) (text : Octets) (value : α) : Prop :=
  ∀ rest, read (text ++ rest) = some (value, rest)

/-- The length below which elements are read. -/
def sizeLimit : Nat := 2 ^ 64

theorem bind_apply {α β : Type} (read : Reader α) (next : α → Reader β) (text : Octets) :
    (read >>= next) text = (read text).bind fun found => next found.1 found.2 := rfl

@[simp] theorem pure_apply {α : Type} (value : α) (text : Octets) :
    (Pure.pure value : Reader α) text = some (value, text) := rfl

theorem Tolerant.within_eq_some {α : Type} {read : Reader α} {text rest : Octets} {value : α}
    (h : read text = some (value, rest)) : Tolerant.within read text = some value := by
  rw [Tolerant.within, h]
  rfl

namespace Reads

variable {α β : Type} {read : Reader α} {next : α → Reader β} {text text' rest : Octets}
  {value found : α} {result : β}

theorem pure (value : α) : Reads (Pure.pure value) [] value := fun _ => rfl

theorem bind (h : Reads read text value) (hnext : Reads (next value) text' result) :
    Reads (read >>= next) (text ++ text') result := by
  intro rest
  rw [bind_apply, List.append_assoc, h, Option.bind_some, hnext]

theorem apply_self (h : Reads read text value) : read text = some (value, []) := by
  have hself := h []
  rw [List.append_nil] at hself
  exact hself

theorem within (h : Reads read text value) : Tolerant.within read text = some value :=
  Tolerant.within_eq_some h.apply_self

theorem eq_of_eq_some {left : Octets} (h : Reads read text value)
    (hread : read (text ++ rest) = some (found, left)) : found = value ∧ left = rest := by
  rw [h] at hread
  cases hread
  exact ⟨rfl, rfl⟩

end Reads

theorem length_lt_encode (tag : UInt8) (contents : Octets) :
    contents.length < (encode tag contents).length := by
  simp only [encode, List.length_cons, List.length_append]
  omega

theorem length_le_flatten {element : Octets} {elements : List Octets} (h : element ∈ elements) :
    element.length ≤ elements.flatten.length := by
  induction elements with
  | nil => cases h
  | cons first rest ih =>
      rw [List.flatten_cons, List.length_append]
      rcases List.mem_cons.mp h with rfl | h
      · omega
      · have := ih h
        omega

theorem length_lt_of_mem {tag : UInt8} {contents : Octets} {elements : List Octets} {limit : Nat}
    (h : elements.flatten.length < limit) (hmem : encode tag contents ∈ elements) :
    contents.length < limit := by
  have hlt := length_lt_encode tag contents
  have hle := length_le_flatten hmem
  omega

namespace Tolerant

variable {tag : UInt8} {contents : Octets}

theorem reads_element (htag : tag.toNat % 32 ≠ 31) (hsize : contents.length < sizeLimit) :
    Reads element (encode tag contents) (elementOf tag contents) := by
  intro rest
  rw [element_encode htag]
  exact if_pos hsize

theorem header_eq (htag : tag.toNat % 32 ≠ 31) (hsize : contents.length < sizeLimit) :
    header (encode tag contents) = some ((elementOf tag [], contents.length), contents) := by
  have hheader := header_encode htag contents []
  rw [List.append_nil, List.append_nil] at hheader
  rw [hheader]
  exact if_pos hsize

theorem reads_tagged (htag : tag.toNat % 32 ≠ 31) (hsize : contents.length < sizeLimit) :
    Reads (tagged (tag.toNat % 32)) (encode tag contents) contents := by
  intro rest
  rw [tagged, bind_apply, reads_element htag hsize]
  simp [elementOf]

theorem reads_primitive (htag : tag.toNat % 32 ≠ 31) (hprimitive : tag.toNat / 32 % 2 = 0)
    (hsize : contents.length < sizeLimit) :
    Reads (primitive (tag.toNat % 32)) (encode tag contents) contents := by
  intro rest
  rw [primitive, bind_apply, reads_element htag hsize]
  simp [elementOf, hprimitive]

theorem reads_contents {elements : List Octets} (hsize : elements.flatten.length < sizeLimit) :
    Reads (tagged 16) (Asn1.sequence elements) elements.flatten :=
  reads_tagged (by decide) hsize

theorem reads_sequence {α : Type} {body : Reader α} {elements : List Octets} {value : α}
    (hsize : elements.flatten.length < sizeLimit)
    (hbody : within body elements.flatten = some value) :
    Reads (Tolerant.sequence body) (Asn1.sequence elements) value := by
  intro rest
  rw [Tolerant.sequence, bind_apply, reads_contents hsize]
  simp [hbody]

theorem reads_oid {oid : Oid} (hsize : oid.contents.length < sizeLimit) :
    Reads Tolerant.oid oid.encode oid.contents := by
  intro rest
  have helement : Reads element oid.encode (elementOf 0x06 oid.contents) :=
    reads_element (by decide) hsize
  rw [Tolerant.oid, bind_apply, helement]
  rfl

theorem bits?_cons_zero (octets : Octets) : bits? (0 :: octets) = some octets := by
  cases hlast : octets.getLast? with
  | none =>
      obtain rfl := List.getLast?_eq_none_iff.mp hlast
      rfl
  | some last => simp [bits?, hlast, Nat.mod_one]

theorem reads_bitString (hsize : contents.length + 1 < sizeLimit) :
    Reads bitString (Asn1.bitString contents) contents := by
  intro rest
  have hprimitive : Reads (primitive 3) (Asn1.bitString contents) (0 :: contents) :=
    reads_primitive (by decide) (by decide) hsize
  rw [bitString, bind_apply, hprimitive]
  simp [bits?_cons_zero]

end Tolerant

@[simp] theorem value_naturalContents (n : Nat) : value (naturalContents n) = n := by
  unfold naturalContents
  have hvalue := value_minimal n
  cases hdigits : minimal n with
  | nil =>
      rw [hdigits] at hvalue
      exact hvalue
  | cons first rest =>
      rw [hdigits] at hvalue
      simp only
      split
      · rw [value_cons, hvalue]
        simp
      · exact hvalue

theorem head_minimal_ne_zero {n : Nat} {first : UInt8} {rest : Octets}
    (h : minimal n = first :: rest) : first ≠ 0 := by
  rintro rfl
  have hlength := length_minimal n
  have hvalue := value_minimal n
  rw [h, List.length_cons] at hlength
  rw [h, value_cons] at hvalue
  have hlt : n < 256 ^ rest.length := by
    have := value_lt rest
    simp only [UInt8.toNat_zero, Nat.zero_mul, Nat.zero_add] at hvalue
    omega
  have := width_le_of_lt_pow hlt
  omega

theorem isPlainInteger_naturalContents (n : Nat) :
    Tolerant.isPlainInteger (naturalContents n) = true := by
  unfold naturalContents
  cases hdigits : minimal n with
  | nil => rfl
  | cons first rest =>
      have hfirst := head_minimal_ne_zero hdigits
      simp only
      split
      · simp [Tolerant.isPlainInteger, hfirst]
      · rename_i hsmall
        cases rest with
        | nil => rfl
        | cons second rest =>
            have hmax : first ≠ 255 := by
              rintro rfl
              exact hsmall (by decide)
            simp [Tolerant.isPlainInteger, hfirst, hmax]

namespace Tolerant

theorem reads_integer {n : Nat} (hsize : (naturalContents n).length < sizeLimit) :
    Reads integer (natural n) (naturalContents n) := by
  intro rest
  have hprimitive : Reads (primitive 2) (natural n) (naturalContents n) :=
    reads_primitive (by decide) (by decide) hsize
  rw [integer, bind_apply, hprimitive]
  simp [isPlainInteger_naturalContents]

variable {ι α : Type} {read : Reader α} {write : ι → Octets} {value : ι → α} {items : List ι}

theorem many_written {budget : Nat} (h : ∀ item ∈ items, Reads read (write item) (value item))
    (hend : read [] = none) (hbudget : items.length ≤ budget) :
    many read budget (items.map write).flatten = (items.map value, []) := by
  induction items generalizing budget with
  | nil =>
      cases budget with
      | zero => rfl
      | succ budget => simp [many, hend]
  | cons item items ih =>
      cases budget with
      | zero => simp at hbudget
      | succ budget =>
          have hrest := ih (fun item hmem => h item (List.mem_cons_of_mem _ hmem))
            (Nat.le_of_succ_le_succ hbudget)
          rw [List.map_cons, List.flatten_cons, many, h item List.mem_cons_self]
          simp only [hrest, List.map_cons]

theorem length_le_length_written (h : ∀ item ∈ items, Reads read (write item) (value item))
    (hend : read [] = none) : items.length ≤ (items.map write).flatten.length := by
  induction items with
  | nil => simp
  | cons item items ih =>
      have hne : write item ≠ [] := by
        intro hempty
        have hread := (h item List.mem_cons_self).apply_self
        rw [hempty, hend] at hread
        cases hread
      have hpos := List.length_pos_iff.mpr hne
      have hrest := ih fun item hmem => h item (List.mem_cons_of_mem _ hmem)
      rw [List.map_cons, List.flatten_cons, List.length_append, List.length_cons]
      omega

theorem every?_written (h : ∀ item ∈ items, Reads read (write item) (value item))
    (hend : read [] = none) :
    every? read (items.map write).flatten = some (items.map value) := by
  rw [every?, many_written h hend (length_le_length_written h hend)]

theorem leading_written (h : ∀ item ∈ items, Reads read (write item) (value item))
    (hend : read [] = none) :
    leading read (items.map write).flatten = items.map value := by
  rw [leading, many_written h hend (length_le_length_written h hend)]

theorem leading_single {text : Octets} {found : α} (h : Reads read text found)
    (hend : read [] = none) : leading read text = [found] := by
  have hleading := @leading_written Unit α read (fun _ => text) (fun _ => found) [()]
    (fun _ _ => h) hend
  rwa [List.map_singleton, List.map_singleton, List.flatten_singleton] at hleading

end Tolerant

end CertRotation.Asn1
