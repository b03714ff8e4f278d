import CertRotation.Proofs.Fallible
import CertRotation.Settings.Rotation

namespace CertRotation

namespace WebhookIdentity

variable {c : Char}

theorem isLabelChar_iff :
    isLabelChar c = true ↔ ('a' ≤ c ∧ c ≤ 'z') ∨ ('0' ≤ c ∧ c ≤ '9') ∨ c = '-' := by
  simp [isLabelChar, or_assoc]

theorem ne_of_isLabelChar {d : Char} (h : isLabelChar c = true) (hd : isLabelChar d = false) :
    c ≠ d := by
  rintro rfl
  rw [h] at hd
  cases hd

theorem toLower_of_isLabelChar (h : isLabelChar c = true) : c.toLower = c := by
  have hlower : ¬(c.val ≥ 'A'.val ∧ c.val ≤ 'Z'.val) := by
    rintro ⟨hfrom, hto⟩
    rcases isLabelChar_iff.mp h with ⟨hsmall, -⟩ | ⟨-, hdigit⟩ | rfl
    · exact absurd (UInt32.le_trans hsmall hto) (by decide)
    · exact absurd (UInt32.le_trans hfrom hdigit) (by decide)
    · exact absurd hfrom (by decide)
  exact dif_neg hlower

theorem toNat_lt_of_isLabelChar (h : isLabelChar c = true) : c.toNat < 128 := by
  have hbound {top : Char} (hle : c ≤ top) (htop : top.toNat < 128) : c.toNat < 128 :=
    Nat.lt_of_le_of_lt (UInt32.le_iff_toNat_le.mp hle) htop
  rcases isLabelChar_iff.mp h with ⟨-, hle⟩ | ⟨-, hle⟩ | rfl
  · exact hbound hle (by decide)
  · exact hbound hle (by decide)
  · decide

end WebhookIdentity

def labelAlphabet : List Char := "abcdefghijklmnopqrstuvwxyz0123456789-".toList

/-- The form of a label: small letters, digits and hyphens, one at least and no hyphen at either
end. -/
structure HasLabelForm (label : List Char) : Prop where
  ne_nil : label ≠ []
  mem_alphabet : ∀ c ∈ label, c ∈ labelAlphabet
  head : label.head? ≠ some '-'
  last : label.getLast? ≠ some '-'

instance : DecidablePred HasLabelForm := fun label =>
  decidable_of_iff (label ≠ [] ∧ label.all (· ∈ labelAlphabet) = true ∧
    label.head? ≠ some '-' ∧ label.getLast? ≠ some '-')
    ⟨fun ⟨hne, hchars, hhead, hlast⟩ => ⟨hne, by simpa using hchars, hhead, hlast⟩,
      fun ⟨hne, hchars, hhead, hlast⟩ => ⟨hne, by simpa using hchars, hhead, hlast⟩⟩

theorem isLabelChar_iff_mem {c : Char} :
    WebhookIdentity.isLabelChar c = true ↔ c ∈ labelAlphabet := by
  constructor
  · intro h
    have hascii : ∀ n < 128, WebhookIdentity.isLabelChar (Char.ofNat n) = true →
        Char.ofNat n ∈ labelAlphabet := by decide
    rw [← Char.ofNat_toNat c] at h ⊢
    exact hascii _ (by simpa using WebhookIdentity.toNat_lt_of_isLabelChar h) h
  · have hall : labelAlphabet.all WebhookIdentity.isLabelChar = true := by decide
    exact List.all_eq_true.mp hall c

namespace LabelField

variable {field : LabelField} {value : String}

/-- What is wrong with a text that has not the form of a label. -/
def fault (field : LabelField) (value : String) : SettingsFault :=
  if value = "" then .emptyLabel field else .badLabel field value

theorem isLabel_iff (h : value ≠ "") :
    WebhookIdentity.isLabel value = true ↔ HasLabelForm value.toList := by
  simp only [WebhookIdentity.isLabel, Bool.and_eq_true, List.all_eq_true, isLabelChar_iff_mem,
    bne_iff_ne]
  constructor
  · rintro ⟨⟨hchars, hhead⟩, hlast⟩
    exact ⟨by simpa using h, hchars, hhead, hlast⟩
  · rintro ⟨-, hchars, hhead, hlast⟩
    exact ⟨⟨hchars, hhead⟩, hlast⟩

theorem check_eq_ok_iff : field.check value = .ok () ↔ HasLabelForm value.toList := by
  rw [check]
  split
  · rename_i hempty
    exact iff_of_false nofun fun h => h.ne_nil (by simp [hempty])
  · rename_i hempty
    rw [← isLabel_iff hempty]
    split
    · rename_i hlabel
      exact iff_of_true rfl hlabel
    · rename_i hlabel
      exact iff_of_false nofun hlabel

theorem check_eq_error (h : ¬HasLabelForm value.toList) :
    field.check value = .error (.config (field.fault value)) := by
  rw [check, fault]
  split
  · rfl
  · rename_i hempty
    rw [if_neg]
    rwa [isLabel_iff hempty]

theorem check_eq_ok (h : field.check value = .ok ()) :
    value ≠ "" ∧ ∀ c ∈ value.toList, WebhookIdentity.isLabelChar c = true := by
  obtain ⟨hne, hchars, -, -⟩ := check_eq_ok_iff.mp h
  exact ⟨by simpa using hne, fun c hc => isLabelChar_iff_mem.mpr (hchars c hc)⟩

end LabelField

namespace WebhookIdentity

variable {id other : WebhookIdentity} {host : String}

theorem isLabelChar_of_check (h : id.check = .ok ()) :
    (∀ c ∈ id.name.toList, isLabelChar c = true) ∧
      ∀ c ∈ id.space.toList, isLabelChar c = true := by
  obtain ⟨_, hname, hspace⟩ := bind_eq_ok_iff.mp h
  exact ⟨(LabelField.check_eq_ok hname).2, (LabelField.check_eq_ok hspace).2⟩

theorem toList_of_mem_serviceHostnames (h : host ∈ id.serviceHostnames) :
    ∃ rest ∈ ["svc", "svc.cluster.local"],
      host.toList = id.name.toList ++ '.' :: (id.space.toList ++ '.' :: rest.toList) := by
  simp only [serviceHostnames, List.mem_cons, List.not_mem_nil, or_false] at h
  obtain rfl | rfl := h
  · exact ⟨"svc", by simp, by simp [shortHostname]⟩
  · exact ⟨"svc.cluster.local", by simp, by simp [shortHostname]⟩

theorem eq_of_label_append {label label' rest rest' : List Char}
    (hlabel : ∀ c ∈ label, isLabelChar c = true) (hlabel' : ∀ c ∈ label', isLabelChar c = true)
    (h : label ++ '.' :: rest = label' ++ '.' :: rest') : label = label' ∧ rest = rest' := by
  have htake {label : List Char} (rest : List Char) (hlabel : ∀ c ∈ label, isLabelChar c = true) :
      (label ++ '.' :: rest).takeWhile isLabelChar = label := by
    rw [List.takeWhile_append_of_pos hlabel, List.takeWhile_cons_of_neg (by decide),
      List.append_nil]
  have heq : label = label' := by
    rw [← htake rest hlabel, h, htake rest' hlabel']
  subst heq
  exact ⟨rfl, (List.cons.inj (List.append_cancel_left h)).2⟩

/-- No host belongs to two services. -/
theorem eq_of_mem_serviceHostnames (hid : id.check = .ok ()) (hother : other.check = .ok ())
    (h : host ∈ id.serviceHostnames) (h' : host ∈ other.serviceHostnames) :
    id.name = other.name ∧ id.space = other.space := by
  obtain ⟨rest, -, htext⟩ := toList_of_mem_serviceHostnames h
  obtain ⟨rest', -, htext'⟩ := toList_of_mem_serviceHostnames h'
  obtain ⟨hname, hspace⟩ := isLabelChar_of_check hid
  obtain ⟨hname', hspace'⟩ := isLabelChar_of_check hother
  obtain ⟨heqName, hrest⟩ := eq_of_label_append hname hname' (htext.symm.trans htext')
  obtain ⟨heqSpace, -⟩ := eq_of_label_append hspace hspace' hrest
  exact ⟨String.toList_inj.mp heqName, String.toList_inj.mp heqSpace⟩

end WebhookIdentity

end CertRotation
