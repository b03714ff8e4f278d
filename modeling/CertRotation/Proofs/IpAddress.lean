import CertRotation.IpAddress

namespace CertRotation.IpAddress

theorem group_octets (g : UInt16) : group (g / 256).toUInt8 g.toUInt8 = g := by
  apply UInt16.toNat_inj.mp
  have hlt : g.toNat < 65536 := g.toNat_lt
  simp only [group, UInt16.toNat_add, UInt16.toNat_mul, UInt8.toNat_toUInt16, UInt16.toNat_toUInt8,
    UInt16.toNat_div, UInt16.reduceToNat]
  omega

theorem ofOctets?_octets (address : IpAddress) : ofOctets? address.octets = some address := by
  cases address with
  | v4 octets =>
      rcases octets with ⟨⟨list⟩, hlength⟩
      match list, hlength with
      | [a, b, c, d], _ => rfl
  | v6 groups =>
      rcases groups with ⟨⟨list⟩, hlength⟩
      match list, hlength with
      | [a, b, c, d, e, f, g, h], _ =>
          simp [octets, ofOctets?, group_octets]

/-- Whether a character may stand in the text of an address. -/
def isAddressChar (c : Char) : Bool := (Octets.hexValue? c).isSome || c == '.' || c == ':'

/-- What a reader leaves of a text when it takes nothing but characters of addresses. -/
def Leaves (text rest : List Char) : Prop :=
  ∃ taken, text = taken ++ rest ∧ taken.all isAddressChar = true

variable {text middle rest : List Char}

theorem Leaves.refl (text : List Char) : Leaves text text := ⟨[], rfl, rfl⟩

theorem Leaves.trans (h : Leaves text middle) (h' : Leaves middle rest) : Leaves text rest := by
  obtain ⟨taken, rfl, hall⟩ := h
  obtain ⟨taken', rfl, hall'⟩ := h'
  refine ⟨taken ++ taken', by simp, ?_⟩
  rw [List.all_append, hall, hall']
  rfl

theorem Leaves.cons {c : Char} (h : isAddressChar c = true) : Leaves (c :: rest) rest :=
  ⟨[c], rfl, by simp [h]⟩

theorem leaves_of_readNumber? {radix maxDigits n : Nat} {leadingZeros : Bool}
    (h : readNumber? radix maxDigits leadingZeros text = some (n, rest)) : Leaves text rest := by
  unfold readNumber? at h
  simp only at h
  split at h
  · cases h
  · obtain ⟨-, rfl⟩ := Prod.mk.inj (Option.some.inj h)
    refine ⟨text.takeWhile fun c => (digitValue? radix c).isSome, ?_, ?_⟩
    · exact (List.prefix_iff_eq_append.mp (List.takeWhile_prefix _)).symm
    · rw [List.all_eq_true]
      intro c hmem
      have hdigit := List.all_eq_true.mp List.all_takeWhile c hmem
      obtain ⟨n, hn⟩ := Option.isSome_iff_exists.mp hdigit
      have hvalue : Octets.hexValue? c = some n := (Option.filter_eq_some_iff.mp hn).1
      simp [isAddressChar, hvalue]

theorem leaves_of_readSeparator? {separator : Char} {isFirst : Bool}
    (hseparator : isAddressChar separator = true)
    (h : readSeparator? separator isFirst text = some rest) : Leaves text rest := by
  unfold readSeparator? at h
  split at h
  · cases h
    exact .refl _
  · split at h
    · rename_i heq
      cases h
      rw [heq]
      exact .cons hseparator
    · cases h
  · cases h

theorem leaves_of_readDotted? {count : Nat} {isFirst : Bool} {octets : List UInt8}
    (h : readDotted? count isFirst text = some (octets, rest)) : Leaves text rest := by
  induction count generalizing isFirst text octets with
  | zero =>
      cases h
      exact .refl _
  | succ count ih =>
      obtain ⟨after, hseparator, h⟩ := Option.bind_eq_some_iff.mp h
      obtain ⟨⟨n, after'⟩, hnumber, h⟩ := Option.bind_eq_some_iff.mp h
      have hfirst := leaves_of_readSeparator? (by decide) hseparator
      have hdigits := leaves_of_readNumber? hnumber
      simp only at h
      split at h
      · cases h
      · obtain ⟨⟨octets', last⟩, hrest, hpure⟩ := Option.bind_eq_some_iff.mp h
        cases hpure
        exact (hfirst.trans hdigits).trans (ih hrest)

theorem leaves_of_bind_readDotted? {isFirst : Bool} {octets : List UInt8}
    (h : (readSeparator? ':' isFirst text).bind (readDotted? 4 true) = some (octets, rest)) :
    Leaves text rest := by
  obtain ⟨after, hseparator, hdotted⟩ := Option.bind_eq_some_iff.mp h
  exact (leaves_of_readSeparator? (by decide) hseparator).trans (leaves_of_readDotted? hdotted)

theorem leaves_of_readGroups (limit : Nat) (isFirst : Bool) (text : List Char) :
    Leaves text (readGroups limit isFirst text).2.2 := by
  induction limit generalizing isFirst text with
  | zero => exact .refl _
  | succ limit ih =>
      rw [readGroups]
      simp only
      split
      · rename_i hembedded
        split at hembedded
        · cases hembedded
        · exact leaves_of_bind_readDotted? hembedded
      · split
        · exact .refl _
        · rename_i hgroup
          obtain ⟨after, hseparator, hnumber⟩ := Option.bind_eq_some_iff.mp hgroup
          have hfirst := leaves_of_readSeparator? (by decide) hseparator
          exact (hfirst.trans (leaves_of_readNumber? hnumber)).trans (ih false _)

theorem leaves_of_readV6? {groups : List UInt16} (h : readV6? text = some (groups, rest)) :
    Leaves text rest := by
  have hfront := leaves_of_readGroups 8 true text
  unfold readV6? at h
  simp only at h
  split at h
  · cases h
    exact hfront
  · split at h
    · cases h
    · split at h
      · rename_i after hgap
        cases h
        rw [hgap] at hfront
        refine (hfront.trans (.cons (by decide))).trans (.trans (.cons (by decide)) ?_)
        exact leaves_of_readGroups _ true after
      · cases h

theorem parse?_eq_none {c : Char} (hmem : c ∈ text) (hother : isAddressChar c = false) :
    parse? text = none := by
  have hnever : ¬Leaves text [] := by
    rintro ⟨taken, rfl, hall⟩
    rw [List.append_nil] at hmem
    rw [List.all_eq_true.mp hall c hmem] at hother
    cases hother
  unfold parse?
  split
  · rename_i hdotted
    exact absurd (leaves_of_readDotted? hdotted) hnever
  · rfl
  · split
    · rename_i hgroups
      exact absurd (leaves_of_readV6? hgroups) hnever
    · rfl

end CertRotation.IpAddress
