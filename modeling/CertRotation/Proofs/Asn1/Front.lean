import CertRotation.Proofs.Asn1.Reads

/-!
What stands at the front of a text. The reader of elements looks at an element and at nothing
behind it, so no element is the front of another one, and what is read from a text is read from
every text with the same element in front.
-/

namespace CertRotation.Asn1

/-- A reader looks at what it takes off the front, and at nothing behind it. -/
def TakesFront {α : Type} (read : Reader α) : Prop :=
  ∀ ⦃text value rest⦄, read text = some (value, rest) →
    ∃ taken, text = taken ++ rest ∧ Reads read taken value

/-- A text is the front of another, but not the whole of it. -/
def IsCutFrom (short text : Octets) : Prop := ∃ cut, cut ≠ [] ∧ text = short ++ cut

namespace TakesFront

variable {α β : Type} {read : Reader α} {next : α → Reader β} {short taken : Octets}
  {value : α}

theorem pure (value : α) : TakesFront (Pure.pure value) := by
  intro text found rest h
  cases h
  exact ⟨[], rfl, .pure value⟩

theorem failure : TakesFront (failure : Reader α) := by
  intro text found rest h
  cases h

theorem lift (value? : Option α) : TakesFront (liftM value? : Reader α) := by
  cases value? with
  | none => exact .failure
  | some value => exact .pure value

theorem bind (h : TakesFront read) (hnext : ∀ value, TakesFront (next value)) :
    TakesFront (read >>= next) := by
  intro text result rest hread
  rw [bind_apply] at hread
  obtain ⟨⟨value, between⟩, hfirst, hrest⟩ := Option.bind_eq_some_iff.mp hread
  obtain ⟨taken, rfl, htaken⟩ := h hfirst
  obtain ⟨taken', rfl, htaken'⟩ := hnext value hrest
  exact ⟨taken ++ taken', (List.append_assoc _ _ _).symm, htaken.bind htaken'⟩

theorem cons {next : UInt8 → Reader α} (hnil : read [] = none)
    (hcons : ∀ first text, read (first :: text) = next first text)
    (h : ∀ first, TakesFront (next first)) : TakesFront read := by
  intro text value rest hread
  cases text with
  | nil =>
      rw [hnil] at hread
      cases hread
  | cons first text =>
      rw [hcons] at hread
      obtain ⟨taken, rfl, htaken⟩ := h first hread
      refine ⟨first :: taken, rfl, fun rest => ?_⟩
      rw [List.cons_append, hcons, htaken]

theorem eq_none (hfront : TakesFront read) (h : Reads read taken value)
    (hshort : IsCutFrom short taken) : read short = none := by
  obtain ⟨cut, hcut, rfl⟩ := hshort
  cases hread : read short with
  | none => rfl
  | some found =>
      obtain ⟨taken', hshort, htaken'⟩ := hfront hread
      -- The whole would be read with nothing left, and with the cut left.
      have hwhole := h.apply_self
      rw [hshort, List.append_assoc, htaken'] at hwhole
      obtain ⟨-, hleft⟩ := Prod.mk.inj (Option.some.inj hwhole)
      exact absurd (List.append_eq_nil_iff.mp hleft).2 hcut

end TakesFront

namespace Tolerant

def octets (count : Nat) : Reader Octets := fun text =>
  if text.length < count then none else some (text.take count, text.drop count)

theorem takesFront_octets (count : Nat) : TakesFront (octets count) := by
  intro text found rest h
  rw [octets] at h
  split at h
  · cases h
  · rename_i henough
    cases h
    have hlength : (text.take count).length = count := by
      rw [List.length_take]
      omega
    refine ⟨text.take count, (List.take_append_drop _ _).symm, fun rest => ?_⟩
    have hle : ¬(text.take count ++ rest).length < count := by
      rw [List.length_append]
      omega
    rw [octets, if_neg hle, List.take_left' hlength, List.drop_left' hlength]

theorem tagNumber_cons (budget acc : Nat) (byte : UInt8) (text : Octets) :
    tagNumber (budget + 1) acc (byte :: text) =
      (if byte < 128 then pure ((acc * 128 + byte.toNat % 128) % Nat.pow 2 32)
        else tagNumber budget ((acc * 128 + byte.toNat % 128) % Nat.pow 2 32) :
        Reader Nat) text := by
  rw [tagNumber]
  split
  · rfl
  · rfl

theorem takesFront_tagNumber (budget acc : Nat) : TakesFront (tagNumber budget acc) := by
  induction budget generalizing acc with
  | zero => exact .failure
  | succ budget ih =>
      refine .cons rfl (tagNumber_cons budget acc) fun byte => ?_
      split
      · exact .pure _
      · exact ih _

theorem length_cons (first : UInt8) (text : Octets) :
    length (first :: text) =
      (if first < 128 then pure first.toNat
        else octets (first.toNat - 128) >>= fun digits =>
          if digits.length = 0 ∨ digits.length = 127 ∨ Octets.value digits ≥ Nat.pow 2 64 then
            failure
          else pure (Octets.value digits) : Reader Nat) text := by
  by_cases hshort : first < 128
  · rw [length, if_pos hshort, if_pos hshort]
    rfl
  · simp only [length, if_neg hshort, bind_apply, octets]
    by_cases henough : text.length < first.toNat - 128
    · simp [henough]
    · have hlength : (text.take (first.toNat - 128)).length = first.toNat - 128 := by
        rw [List.length_take]
        omega
      simp only [henough, if_false, Option.bind_some, hlength, false_or]
      split
      · rfl
      · rfl

theorem takesFront_length : TakesFront length := by
  refine .cons rfl length_cons fun first => ?_
  split
  · exact .pure _
  · refine (takesFront_octets _).bind fun digits => ?_
    split
    · exact .failure
    · exact .pure _

theorem header_cons (first : UInt8) (text : Octets) :
    header (first :: text) =
      ((if first.toNat % 32 = 31 then tagNumber maxTagOctets 0 else pure (first.toNat % 32)) >>=
        fun number => length >>= fun n =>
          pure (⟨tagClass first, first.toNat / 32 % 2 = 1, number, []⟩, n) :
        Reader (Element × Nat)) text := by
  rw [header]
  by_cases hlong : first.toNat % 32 = 31
  · simp only [if_pos hlong]
    rfl
  · simp only [if_neg hlong]
    rfl

theorem takesFront_header : TakesFront header := by
  refine .cons rfl header_cons fun first => ?_
  refine .bind ?_ fun number => takesFront_length.bind fun n => .pure _
  split
  · exact takesFront_tagNumber _ _
  · exact .pure _

theorem element_eq : element = header >>= fun found => octets found.2 >>= fun contents =>
    pure { found.1 with contents } := by
  funext text
  rw [bind_apply]
  refine congrArg _ (funext fun ⟨⟨announced, n⟩, rest⟩ => ?_)
  simp only [bind_apply, octets]
  split
  · rfl
  · rfl

theorem takesFront_element : TakesFront element := by
  rw [element_eq]
  exact takesFront_header.bind fun _ => (takesFront_octets _).bind fun _ => .pure _

end Tolerant

/-- A text is one element, from its first octet to its last. -/
def IsElement (text : Octets) : Prop := ∃ e, Tolerant.element text = some (e, [])

namespace IsElement

variable {text other rest left : Octets}

theorem reads (h : IsElement text) : ∃ e, Reads Tolerant.element text e := by
  obtain ⟨e, he⟩ := h
  obtain ⟨taken, htext, htaken⟩ := Tolerant.takesFront_element he
  rw [List.append_nil] at htext
  exact ⟨e, htext ▸ htaken⟩

theorem unique (h : IsElement text) (hother : IsElement other)
    (heq : text ++ rest = other ++ left) : text = other := by
  obtain ⟨e, he⟩ := h.reads
  obtain ⟨e', he'⟩ := hother.reads
  have hread := he rest
  rw [heq, he'] at hread
  obtain ⟨-, rfl⟩ := Prod.mk.inj (Option.some.inj hread)
  exact List.append_cancel_right heq

theorem append_iff (h : IsElement text) : IsElement (text ++ rest) ↔ rest = [] := by
  constructor
  · intro hwhole
    have heq : text ++ rest = (text ++ rest) ++ [] := (List.append_nil _).symm
    exact List.self_eq_append_right.mp (h.unique hwhole heq)
  · rintro rfl
    rwa [List.append_nil]

end IsElement

namespace Tolerant

variable {α : Type} {body : Reader α} {text rest : Octets} {value : α}

theorem takesFront_sequence : TakesFront (Tolerant.sequence body) := by
  refine .bind (takesFront_element.bind fun e => ?_) fun contents => .lift _
  split
  · exact .pure _
  · exact .failure

theorem exists_isElement_of_sequence (h : Tolerant.sequence body text = some (value, rest)) :
    ∃ taken, text = taken ++ rest ∧ IsElement taken ∧
      Reads (Tolerant.sequence body) taken value := by
  obtain ⟨taken, htext, htaken⟩ := takesFront_sequence h
  refine ⟨taken, htext, ?_, htaken⟩
  have hwhole := htaken.apply_self
  simp only [Tolerant.sequence, tagged, bind_apply, Option.bind_eq_some_iff] at hwhole
  obtain ⟨⟨contents, left⟩, ⟨⟨e, left'⟩, helement, htagged⟩, hbody⟩ := hwhole
  rw [liftM_apply] at hbody
  obtain ⟨_, -, hpair⟩ := Option.map_eq_some_iff.mp hbody
  cases hpair
  split at htagged
  · cases htagged
    exact ⟨e, helement⟩
  · cases htagged

end Tolerant

end CertRotation.Asn1
