import CertRotation.JsonForm.Settings
import CertRotation.Proofs.Json.Number
import CertRotation.Proofs.Json.Reads

namespace CertRotation.Json

section record

variable {members : List (String × Json)} {name : String} {value : Json}

theorem member?_of_mem (hnodup : (members.map Prod.fst).Nodup) (h : (name, value) ∈ members) :
    member? (members.map fun (name, value) => (some name, value)) name = some (some value) := by
  have hfilter : (members.map fun (name, value) => (some name, value)).filter
      (fun m => m.1 == some name) = [(some name, value)] := by
    induction members with
    | nil => cases h
    | cons first members ih =>
        obtain ⟨first, other⟩ := first
        rw [List.map_cons, List.nodup_cons] at hnodup
        rw [List.map_cons]
        by_cases heq : first = name
        · subst heq
          have hlater : ∀ value, (first, value) ∉ members :=
            fun value hmem => hnodup.1 (List.mem_map.mpr ⟨(first, value), hmem, rfl⟩)
          have hvalue : value = other := by
            rcases List.mem_cons.mp h with heq | hmem
            · exact congrArg Prod.snd heq
            · exact absurd hmem (hlater value)
          rw [List.filter_cons_of_pos (by simp), hvalue, List.filter_eq_nil_iff.mpr]
          intro m hm
          obtain ⟨⟨n, v⟩, hmem, rfl⟩ := List.mem_map.mp hm
          simp only [beq_iff_eq, Option.some.injEq]
          rintro rfl
          exact hlater v hmem
        · rw [List.filter_cons_of_neg (by simpa using heq)]
          refine ih hnodup.2 ?_
          rcases List.mem_cons.mp h with hfirst | hmem
          · cases hfirst
            exact absurd rfl heq
          · exact hmem
  rw [member?, hfilter]

theorem fields?_record (hnodup : (members.map Prod.fst).Nodup) :
    (record members).fields? (members.map Prod.fst) = some (members.map (some ·.2)) := by
  have hnamed : (members.map fun (name, value) => (some name, value)).all (·.1.isSome) = true := by
    simp
  rw [record, fields?, if_pos hnamed]
  have hall : ∀ m ∈ members,
      member? (members.map fun (name, value) => (some name, value)) m.1 = some (some m.2) :=
    fun m hmem => member?_of_mem hnodup hmem
  generalize (members.map fun (name, value) => (some name, value)) = written at *
  clear hnodup hnamed
  induction members with
  | nil => rfl
  | cons first members ih =>
      have hrest := ih fun m hmem => hall m (List.mem_cons_of_mem _ hmem)
      rw [List.map_cons, List.mapM_cons, hall first List.mem_cons_self, hrest]
      rfl

theorem fields?_zip (names : List String) (values : List Json) (hnodup : names.Nodup)
    (hlength : names.length = values.length) :
    (record (names.zip values)).fields? names = some (values.map some) := by
  have hnames : (names.zip values).map Prod.fst = names := List.map_fst_zip hlength.le
  have hvalues : (names.zip values).map (some ·.2) = values.map some := by
    rw [← Function.comp_def some Prod.snd, ← List.map_map, List.map_snd_zip hlength.ge]
  have hfields := @fields?_record (names.zip values)
  rw [hnames, hvalues] at hfields
  exact hfields hnodup

theorem isProper_record (h : ∀ m ∈ members, m.2.IsProper) : (record members).IsProper := by
  refine .object ?_ ?_
  · intro m hm
    obtain ⟨member, -, rfl⟩ := List.mem_map.mp hm
    rfl
  · intro m hm
    obtain ⟨member, hmem, rfl⟩ := List.mem_map.mp hm
    exact h member hmem

end record

section list

variable {α : Type} {write : α → Json} {read : Json → Option α} {items : List α}

theorem toList?_ofList (h : ∀ item ∈ items, read (write item) = some item) :
    toList? read (ofList write items) = some items := by
  rw [ofList, toList?]
  induction items with
  | nil => rfl
  | cons item items ih =>
      have hrest := ih fun item hmem => h item (List.mem_cons_of_mem _ hmem)
      rw [List.map_cons, List.mapM_cons, h item List.mem_cons_self, hrest]
      rfl

theorem toList?_texts (items : List String) : toList? toText? (texts items) = some items :=
  @toList?_ofList _ ofString _ _ fun _ _ => rfl

theorem isProper_ofList (h : ∀ item ∈ items, (write item).IsProper) :
    (ofList write items).IsProper := by
  refine .array fun value hvalue => ?_
  obtain ⟨item, hmem, rfl⟩ := List.mem_map.mp hvalue
  exact h item hmem

theorem isProper_texts (items : List String) : (texts items).IsProper :=
  @isProper_ofList _ ofString _ fun item _ => .str item

end list

section numbers

theorem toUInt64?_ofNat (n : UInt64) : toUInt64? (ofNat n.toNat) = some n := by
  have hword : n.toNat < JsonNumber.wordLimit := n.toNat_lt
  rw [toUInt64?, ofNat, toWord?, JsonNumber.toWord?_toDigits hword, Option.map_some,
    UInt64.ofNat_toNat]

theorem isProper_ofNat (n : ℕ) : (ofNat n).IsProper := .number (JsonNumber.isProper_toDigits n)

theorem isProper_ofBinary64 (x : Binary64) : (ofBinary64 x).IsProper := by
  cases x with
  | nan => exact .null
  | infinite => exact .null
  | finite negative m e normal => exact .number (JsonNumber.isProper_ofFinite negative normal)

end numbers

end CertRotation.Json
