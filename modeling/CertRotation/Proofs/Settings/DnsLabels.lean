import CertRotation.Proofs.WebhookIdentity
import Mathlib.Data.List.TakeDrop

namespace CertRotation

def maxLabelLength : Nat := 63

/-- The most characters of the name of a host. -/
def maxHostLength : Nat := 253

/-- A label of the names of hosts. -/
structure IsDnsLabel (label : List Char) : Prop extends HasLabelForm label where
  length_le : label.length ≤ maxLabelLength

instance : DecidablePred IsDnsLabel := fun label =>
  decidable_of_iff (HasLabelForm label ∧ label.length ≤ maxLabelLength)
    ⟨fun ⟨hform, hlength⟩ => ⟨hform, hlength⟩, fun ⟨hform, hlength⟩ => ⟨hform, hlength⟩⟩

/-- The name of a host: the dots part it into labels. -/
structure IsDnsName (name : List Char) : Prop where
  labels : ∀ label ∈ name.splitOn '.', IsDnsLabel label
  length_le : name.length ≤ maxHostLength

theorem HasLabelForm.dot_not_mem {label : List Char} (h : HasLabelForm label) : '.' ∉ label := by
  intro hdot
  exact absurd (h.mem_alphabet _ hdot) (by decide)

theorem splitOn_labels {first second : List Char} (h : HasLabelForm first)
    (h' : HasLabelForm second) (rest : List Char) :
    (first ++ '.' :: (second ++ '.' :: rest)).splitOn '.' =
      first :: second :: rest.splitOn '.' := by
  rw [List.splitOn_append_cons_self_of_not_mem h.dot_not_mem,
    List.splitOn_append_cons_self_of_not_mem h'.dot_not_mem]

namespace WebhookIdentity

variable {id : WebhookIdentity} {host : String}

/-- Name and space are both labels of the names of hosts. -/
structure HasDnsLabels (id : WebhookIdentity) : Prop where
  name : IsDnsLabel id.name.toList
  space : IsDnsLabel id.space.toList

theorem check_eq_ok_iff :
    id.check = .ok () ↔ HasLabelForm id.name.toList ∧ HasLabelForm id.space.toList := by
  rw [check, bind_eq_ok_iff]
  constructor
  · rintro ⟨_, hname, hspace⟩
    exact ⟨LabelField.check_eq_ok_iff.mp hname, LabelField.check_eq_ok_iff.mp hspace⟩
  · rintro ⟨hname, hspace⟩
    exact ⟨(), LabelField.check_eq_ok_iff.mpr hname, LabelField.check_eq_ok_iff.mpr hspace⟩

theorem check_eq_error (h : id.check ≠ .ok ()) :
    id.check = .error (.config (if HasLabelForm id.name.toList then
      LabelField.space.fault id.space else LabelField.name.fault id.name)) := by
  rw [ne_eq, check_eq_ok_iff, not_and] at h
  split
  · rename_i hname
    rw [check, LabelField.check_eq_ok_iff.mpr hname, ok_bind, LabelField.check_eq_error (h hname)]
  · rename_i hname
    rw [check, LabelField.check_eq_error hname, error_bind]

theorem hasDnsLabels_iff : id.HasDnsLabels ↔
    id.check = .ok () ∧ id.name.length ≤ maxLabelLength ∧ id.space.length ≤ maxLabelLength := by
  rw [check_eq_ok_iff]
  constructor
  · rintro ⟨⟨hname, hlength⟩, ⟨hspace, hlength'⟩⟩
    exact ⟨⟨hname, hspace⟩, hlength, hlength'⟩
  · rintro ⟨⟨hname, hspace⟩, hlength, hlength'⟩
    exact ⟨⟨hname, hlength⟩, ⟨hspace, hlength'⟩⟩

theorem isDnsLabel_of_mem_rest {rest : String} (h : rest ∈ ["svc", "svc.cluster.local"]) :
    (∀ label ∈ rest.toList.splitOn '.', IsDnsLabel label) ∧ rest.length ≤ 17 := by
  simp only [List.mem_cons, List.not_mem_nil, or_false] at h
  obtain rfl | rfl := h
  · decide
  · decide

theorem isDnsName_of_mem_serviceHostnames (hid : id.HasDnsLabels)
    (h : host ∈ id.serviceHostnames) : IsDnsName host.toList := by
  obtain ⟨rest, hrest, htext⟩ := toList_of_mem_serviceHostnames h
  obtain ⟨hlabels, hlength⟩ := isDnsLabel_of_mem_rest hrest
  rw [htext]
  constructor
  · rw [splitOn_labels hid.name.toHasLabelForm hid.space.toHasLabelForm]
    simp only [List.forall_mem_cons]
    exact ⟨hid.name, hid.space, hlabels⟩
  · have hname := hid.name.length_le
    have hspace := hid.space.length_le
    rw [String.length_toList] at hname hspace
    simp only [List.length_append, List.length_cons, String.length_toList, maxHostLength,
      maxLabelLength] at *
    omega

theorem hasDnsLabels_iff_isDnsName (hid : id.check = .ok ()) :
    id.HasDnsLabels ↔ ∀ host ∈ id.serviceHostnames, IsDnsName host.toList := by
  constructor
  · intro hlabels host hhost
    exact isDnsName_of_mem_serviceHostnames hlabels hhost
  · intro hhosts
    -- Name and space are labels of every host, so that one host tells of both.
    obtain ⟨hname, hspace⟩ := check_eq_ok_iff.mp hid
    have hmem : id.shortHostname ∈ id.serviceHostnames := List.mem_cons_self
    obtain ⟨rest, -, htext⟩ := toList_of_mem_serviceHostnames hmem
    obtain ⟨hlabels, -⟩ := hhosts _ hmem
    rw [htext, splitOn_labels hname hspace] at hlabels
    exact ⟨hlabels _ (by simp), hlabels _ (by simp)⟩

/-- An identity is accepted exactly if its name and its space have the form of labels, and otherwise
the first of the two that has not is named. They are labels if moreover neither is longer than
labels are, and only then do the hosts of an accepted identity have proper names. -/
theorem check_iff_hasLabelForm (id : WebhookIdentity) :
    (id.check = .ok () ↔ HasLabelForm id.name.toList ∧ HasLabelForm id.space.toList) ∧
    (id.check ≠ .ok () →
      id.check = .error (.config (if HasLabelForm id.name.toList then
        LabelField.space.fault id.space else LabelField.name.fault id.name))) ∧
    (id.HasDnsLabels ↔ id.check = .ok () ∧ id.name.length ≤ maxLabelLength ∧
      id.space.length ≤ maxLabelLength) ∧
    (id.check = .ok () →
      (id.HasDnsLabels ↔ ∀ host ∈ id.serviceHostnames, IsDnsName host.toList)) :=
  ⟨check_eq_ok_iff, check_eq_error, hasDnsLabels_iff, hasDnsLabels_iff_isDnsName⟩

/-- A name of one character too many is accepted. -/
theorem check_eq_ok_of_overlong :
    let id : WebhookIdentity := ⟨String.ofList (List.replicate 64 'a'), "system", .mutating⟩
    id.check = .ok () ∧ ¬id.HasDnsLabels := by
  refine ⟨by decide, ?_⟩
  rintro ⟨⟨-, hlength⟩, -⟩
  exact absurd hlength (by decide)

end WebhookIdentity

end CertRotation
