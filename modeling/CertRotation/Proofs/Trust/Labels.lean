import CertRotation.Proofs.IpAddress.Spelling
import CertRotation.Proofs.Trust.Hostname
import Mathlib.Data.List.TakeDrop

/-!
Host names are matched label by label. The labels of a name are what its dots part, the dots at its
end left out. A pattern and a host have equally many, and only the first label of a pattern can
stand for others.
-/

namespace CertRotation

namespace Hostname

open Text (lowerCase)

def labels (name : String) : List (List Char) := (trimDots name.toList).splitOn '.'

/-- The labels of a pattern stand for those of a host: there are equally many, those after the
first are equal but for case, and so are the first ones unless a wildcard, with a label after it,
stands for a label that is not empty. -/
structure StandsFor (pattern host : List (List Char)) : Prop where
  count : pattern.length = host.length
  others : pattern.tail.map lowerCase = host.tail.map lowerCase
  first : pattern.head?.map lowerCase = host.head?.map lowerCase ∨
    2 ≤ pattern.length ∧ pattern.head? = some ['*'] ∧ host.head? ≠ some []

/-- What is left of a name where neither the case of letters nor the dots at its end count. -/
def folded (name : String) : List Char := lowerCase (trimDots name.toList)

/-- Two spellings of a name: they differ in the case of letters and in the dots at their ends. -/
def IsRespelled (name other : String) : Prop := folded name = folded other

variable {name other host host' pattern pattern' : String} {text rest : List Char}

theorem sameIgnoringCase_iff {a b : List Char} :
    sameIgnoringCase a b = true ↔ lowerCase a = lowerCase b := beq_iff_eq

theorem lowerCase_eq_iff_labels {a b : List Char} :
    lowerCase a = lowerCase b ↔
      (a.splitOn '.').map lowerCase = (b.splitOn '.').map lowerCase :=
  Text.lowerCase_eq_iff_splitOn (by decide)

theorem afterLabel?_eq_some_iff : afterLabel? text = some rest ↔
    ∃ label, label ≠ [] ∧ '.' ∉ label ∧ text = label ++ '.' :: rest := by
  rw [afterLabel?, List.span_eq_takeWhile_dropWhile]
  constructor
  · intro h
    have htext := List.takeWhile_append_dropWhile (p := (· != '.')) (l := text)
    have hlabel : '.' ∉ text.takeWhile (· != '.') := by
      intro hmem
      simpa using List.all_eq_true.mp List.all_takeWhile _ hmem
    split at h
    · rename_i c label rest' hspan
      cases h
      obtain ⟨htake, hdrop⟩ := Prod.mk.inj hspan
      rw [htake, hdrop] at htext
      rw [htake] at hlabel
      exact ⟨c :: label, List.cons_ne_nil _ _, hlabel, htext.symm⟩
    · cases h
  · rintro ⟨label, hne, hdot, rfl⟩
    have hall : ∀ c ∈ label, (c != '.') = true := by
      intro c hmem
      rw [bne_iff_ne]
      rintro rfl
      exact hdot hmem
    obtain ⟨c, label, rfl⟩ := List.exists_cons_of_ne_nil hne
    rw [List.takeWhile_append_of_pos hall, List.dropWhile_append_of_pos hall]
    simp

theorem splitOn_wildcard (suffix : List Char) :
    ('*' :: '.' :: suffix).splitOn '.' = ['*'] :: suffix.splitOn '.' := by
  have hstar : '.' ∉ ['*'] := by decide
  exact List.splitOn_append_cons_self_of_not_mem hstar suffix

theorem standsFor_wildcard_iff {suffix : List Char} :
    StandsFor (['*'] :: suffix.splitOn '.') (text.splitOn '.') ↔
      ∃ rest, afterLabel? text = some rest ∧ lowerCase rest = lowerCase suffix := by
  constructor
  · rintro ⟨-, hothers, hfirst⟩
    obtain ⟨label, more, hlabels⟩ := List.exists_cons_of_ne_nil (List.splitOn_ne_nil '.' text)
    rw [hlabels] at hothers hfirst
    simp only [List.tail_cons] at hothers
    -- The suffix has a label, even if it is empty, so that the host has a dot.
    have hmore : more ≠ [] := by
      rintro rfl
      exact List.splitOn_ne_nil '.' suffix (List.map_eq_nil_iff.mp hothers)
    have hlabel : label ≠ [] := by
      rintro rfl
      rcases hfirst with hsame | ⟨-, -, hsome⟩
      · cases hsame
      · exact hsome rfl
    obtain ⟨rest, rfl, hdot, hrest⟩ := Text.exists_of_splitOn_cons hlabels hmore
    refine ⟨rest, afterLabel?_eq_some_iff.mpr ⟨label, hlabel, hdot, rfl⟩, ?_⟩
    rw [lowerCase_eq_iff_labels, hrest, hothers]
  · rintro ⟨rest, hrest, hsame⟩
    obtain ⟨label, hlabel, hdot, rfl⟩ := afterLabel?_eq_some_iff.mp hrest
    rw [lowerCase_eq_iff_labels] at hsame
    rw [List.splitOn_append_cons_self_of_not_mem hdot]
    exact {
      count := by simpa using (congrArg List.length hsame).symm
      others := hsame.symm
      first := .inr ⟨Nat.succ_le_succ (List.length_pos_of_ne_nil (List.splitOn_ne_nil _ _)), rfl,
        fun h => hlabel (Option.some.inj h)⟩ }

theorem standsFor_plain_iff {pattern : List Char}
    (h : ∀ suffix, pattern ≠ '*' :: '.' :: suffix) :
    StandsFor (pattern.splitOn '.') (text.splitOn '.') ↔ lowerCase pattern = lowerCase text := by
  rw [lowerCase_eq_iff_labels]
  constructor
  · rintro ⟨-, hothers, hfirst⟩
    obtain ⟨label, more, hpattern⟩ := List.exists_cons_of_ne_nil (List.splitOn_ne_nil '.' pattern)
    obtain ⟨label', more', htext⟩ := List.exists_cons_of_ne_nil (List.splitOn_ne_nil '.' text)
    rw [hpattern, htext] at hothers hfirst ⊢
    rcases hfirst with hsame | ⟨hcount, hstar, -⟩
    · rw [List.map_cons, List.map_cons, Option.some.inj hsame]
      exact congrArg _ hothers
    · cases hstar
      -- A star with a label after it is a wildcard, which the pattern is not.
      have hmore : more ≠ [] := by
        rintro rfl
        exact absurd hcount (by decide)
      obtain ⟨suffix, hwildcard, -⟩ := Text.exists_of_splitOn_cons hpattern hmore
      exact absurd hwildcard (h suffix)
  · intro hsame
    exact {
      count := by simpa using congrArg List.length hsame
      others := by simpa using congrArg List.tail hsame
      first := .inl (by simpa using congrArg List.head? hsame) }

/-- A pattern covers a host exactly if its labels stand for those of the host. -/
theorem isCoveredBy_iff_standsFor :
    isCoveredBy host pattern = true ↔ StandsFor (labels pattern) (labels host) := by
  unfold isCoveredBy labels
  simp only
  split
  · rename_i suffix hwildcard
    rw [hwildcard, splitOn_wildcard, standsFor_wildcard_iff, Option.any_eq_true]
    simp only [sameIgnoringCase_iff]
  · rename_i hplain
    rw [standsFor_plain_iff hplain, sameIgnoringCase_iff]

theorem standsFor_star_iff {suffix labels : List (List Char)} (h : suffix ≠ []) :
    StandsFor (['*'] :: suffix) labels ↔ ∃ label others, labels = label :: others ∧ label ≠ [] ∧
      others.map lowerCase = suffix.map lowerCase := by
  constructor
  · rintro ⟨hcount, hothers, hfirst⟩
    obtain ⟨label, others, rfl⟩ := List.exists_cons_of_length_eq_add_one hcount.symm
    refine ⟨label, others, rfl, ?_, hothers.symm⟩
    rintro rfl
    rcases hfirst with hsame | ⟨-, -, hnonempty⟩
    · cases hsame
    · exact hnonempty rfl
  · rintro ⟨label, others, rfl, hlabel, hothers⟩
    exact {
      count := by simpa using (congrArg List.length hothers).symm
      others := hothers.symm
      first := .inr ⟨Nat.succ_le_succ (List.length_pos_of_ne_nil h), rfl,
        fun hempty => hlabel (Option.some.inj hempty)⟩ }

theorem head?_eq_of_lowerCase {labels labels' : List (List Char)} {label : List Char}
    (h : labels.map lowerCase = labels'.map lowerCase)
    (hlabel : ∀ other, lowerCase other = lowerCase label → other = label)
    (hhead : labels.head? = some label) : labels'.head? = some label := by
  have hsame := congrArg List.head? h
  rw [List.head?_map, List.head?_map, hhead] at hsame
  obtain ⟨other, hother, hlower⟩ := Option.map_eq_some_iff.mp hsame.symm
  rw [hother, hlabel other hlower]

theorem StandsFor.congr {labels labels' others others' : List (List Char)}
    (hlabels : labels.map lowerCase = labels'.map lowerCase)
    (hothers : others.map lowerCase = others'.map lowerCase) (h : StandsFor labels others) :
    StandsFor labels' others' := by
  have hlength := congrArg List.length hlabels
  have hlength' := congrArg List.length hothers
  rw [List.length_map, List.length_map] at hlength hlength'
  constructor
  · rw [← hlength, ← hlength', h.count]
  · rw [List.map_tail, List.map_tail, ← hlabels, ← hothers, ← List.map_tail, ← List.map_tail,
      h.others]
  · rcases h.first with hsame | ⟨hcount, hstar, hnonempty⟩
    · left
      rw [← List.head?_map, ← List.head?_map, ← hlabels, ← hothers, List.head?_map, List.head?_map,
        hsame]
    · right
      refine ⟨hlength ▸ hcount, head?_eq_of_lowerCase hlabels ?_ hstar, ?_⟩
      · intro other hother
        obtain ⟨c, rfl, hc⟩ := List.map_eq_singleton_iff.mp hother
        exact congrArg ([·]) ((Text.toLower_eq_iff (by decide)).mp hc)
      · intro hempty
        refine hnonempty (head?_eq_of_lowerCase hothers.symm ?_ hempty)
        intro other hother
        exact Text.lowerCase_eq_nil_iff.mp hother

theorem isRespelled_iff_labels : IsRespelled name other ↔
    (labels name).map lowerCase = (labels other).map lowerCase := lowerCase_eq_iff_labels

theorem lowerCase_trimDots (text : List Char) :
    lowerCase (trimDots text) = trimDots (lowerCase text) := by
  have hdot : (fun c : Char => c.toLower == '.') = (· == '.') := by
    funext c
    rw [Bool.eq_iff_iff, beq_iff_eq, beq_iff_eq, Text.toLower_eq_iff (by decide)]
  rw [trimDots, trimDots, lowerCase, lowerCase, ← List.map_reverse, List.dropWhile_map,
    List.map_reverse]
  exact congrArg (fun p => ((text.reverse.dropWhile p).map Char.toLower).reverse) hdot.symm

theorem isRespelled_of_lowerCase (h : lowerCase name.toList = lowerCase other.toList) :
    IsRespelled name other := by
  rw [IsRespelled, folded, folded, lowerCase_trimDots, lowerCase_trimDots, h]

theorem isCoveredBy_of_isRespelled (hhost : IsRespelled host host')
    (hpattern : IsRespelled pattern pattern') (h : isCoveredBy host pattern = true) :
    isCoveredBy host' pattern' = true := by
  rw [isRespelled_iff_labels] at hhost hpattern
  rw [isCoveredBy_iff_standsFor] at h ⊢
  exact h.congr hpattern hhost

theorem IsRespelled.parse?_eq (h : IsRespelled host host')
    (hboth : (IpAddress.parse? host.toList).isSome = (IpAddress.parse? host'.toList).isSome) :
    IpAddress.parse? host.toList = IpAddress.parse? host'.toList := by
  cases hparse : IpAddress.parse? host.toList with
  | none =>
      rw [hparse] at hboth
      exact (Option.isNone_iff_eq_none.mp (Option.isSome_eq_false_iff.mp hboth.symm)).symm
  | some address =>
      rw [hparse] at hboth
      obtain ⟨address', hparse'⟩ := Option.isSome_iff_exists.mp hboth.symm
      -- Without dots at its end a text is what is left of it, so that only the case can differ.
      have hkept {text : List Char} {a : IpAddress} (ha : IpAddress.parse? text = some a) :
          trimDots text = text := by
        simpa using trimDots_append_replicate (IpAddress.getLast?_of_parse? ha) 0
      rw [IsRespelled, folded, folded, hkept hparse, hkept hparse'] at h
      rw [← hparse, ← IpAddress.parse?_lowerCase host.toList, h, IpAddress.parse?_lowerCase]

end Hostname

/-- A certificate for the hosts of a space and for one address. -/
def Sample.spacious : Certificate where
  __ := Certificate.ofWindow [] ⟨0, 0⟩ ⟨9, 0⟩ ⟨"hook", []⟩ ⟨"ca", []⟩
  san := [.dns "*.Ops.svc", .ip (.v4 #v[10, 0, 0, 7])]

namespace Certificate

open Hostname
open Text (lowerCase)

variable {cert twin : Certificate} {host host' : String}

/-- Certificates for the same addresses and for spellings of the same names are good for spellings
of the same hosts, of which both or neither are texts of addresses. -/
theorem isGoodFor_of_isRespelled (haddresses : cert.ipAddresses = twin.ipAddresses)
    (hnames : cert.dnsNames.map folded = twin.dnsNames.map folded)
    (hhost : IsRespelled host host')
    (hboth : (IpAddress.parse? host.toList).isSome = (IpAddress.parse? host'.toList).isSome)
    (h : cert.isGoodFor host = true) : twin.isGoodFor host' = true := by
  unfold isGoodFor at h ⊢
  rw [← hhost.parse?_eq hboth, ← haddresses]
  cases hparse : IpAddress.parse? host.toList with
  | some address =>
      rw [hparse] at h
      exact h
  | none =>
      rw [hparse] at h
      obtain ⟨pattern, hpattern, hcovered⟩ := List.any_eq_true.mp h
      have hmem : folded pattern ∈ twin.dnsNames.map folded :=
        hnames ▸ List.mem_map_of_mem hpattern
      obtain ⟨pattern', hpattern', hsame⟩ := List.mem_map.mp hmem
      exact List.any_eq_true.mpr
        ⟨pattern', hpattern', isCoveredBy_of_isRespelled hhost hsame.symm hcovered⟩

theorem isGoodFor_congr (haddresses : cert.ipAddresses = twin.ipAddresses)
    (hnames : cert.dnsNames.map folded = twin.dnsNames.map folded)
    (hhost : IsRespelled host host')
    (hboth : (IpAddress.parse? host.toList).isSome = (IpAddress.parse? host'.toList).isSome) :
    cert.isGoodFor host = twin.isGoodFor host' := by
  rw [Bool.eq_iff_iff]
  exact ⟨isGoodFor_of_isRespelled haddresses hnames hhost hboth,
    isGoodFor_of_isRespelled haddresses.symm hnames.symm hhost.symm hboth.symm⟩

/-- The text of an address is looked up among the addresses. Another host is matched label by label
with the names, where a wildcard covers one label, the first, that is not empty. The case of letters
does not count, and neither do the dots at the end of a name or of a host; those of a host do count
where they make the text of an address one that is none. -/
theorem isGoodFor_labelwise (cert : Certificate) (host : String) :
    (cert.isGoodFor host = true ↔
      (∃ address, IpAddress.parse? host.toList = some address ∧ address ∈ cert.ipAddresses) ∨
        IpAddress.parse? host.toList = none ∧
          ∃ pattern ∈ cert.dnsNames, StandsFor (labels pattern) (labels host)) ∧
    (∀ pattern suffix, labels pattern = ['*'] :: suffix → suffix ≠ [] →
      (isCoveredBy host pattern = true ↔ ∃ label others, labels host = label :: others ∧
        label ≠ [] ∧ others.map lowerCase = suffix.map lowerCase)) ∧
    (∀ other, lowerCase host.toList = lowerCase other.toList →
      cert.isGoodFor host = cert.isGoodFor other) ∧
    (∀ other, IsRespelled host other →
      (IpAddress.parse? host.toList).isSome = (IpAddress.parse? other.toList).isSome →
      cert.isGoodFor host = cert.isGoodFor other) ∧
    ∀ twin : Certificate, cert.ipAddresses = twin.ipAddresses →
      cert.dnsNames.map folded = twin.dnsNames.map folded →
      cert.isGoodFor host = twin.isGoodFor host := by
  refine ⟨?_, ?_, ?_, ?_, ?_⟩
  · unfold isGoodFor
    cases IpAddress.parse? host.toList with
    | some address => simp
    | none => simp [isCoveredBy_iff_standsFor]
  · intro pattern suffix hpattern hsuffix
    rw [isCoveredBy_iff_standsFor, hpattern, standsFor_star_iff hsuffix]
  · intro other hcase
    refine isGoodFor_congr rfl rfl (isRespelled_of_lowerCase hcase) ?_
    rw [← IpAddress.parse?_lowerCase host.toList, hcase, IpAddress.parse?_lowerCase]
  · intro other hspelling hboth
    exact isGoodFor_congr rfl rfl hspelling hboth
  · intro twin haddresses hnames
    exact isGoodFor_congr haddresses hnames rfl rfl

theorem isGoodFor_labelwise_sample :
    labels "*.Ops.svc" = ["*", "Ops", "svc"].map String.toList ∧
    lowerCase "hook.ops.svc".toList = lowerCase "Hook.OPS.svc".toList ∧
    IsRespelled "hook.ops.svc" "HOOK.ops.svc.." ∧
    Sample.spacious.isGoodFor "hook.ops.svc" = true ∧
    Sample.spacious.isGoodFor "Hook.OPS.svc" = true ∧
    Sample.spacious.isGoodFor "HOOK.ops.svc.." = true ∧
    isCoveredBy "hook.ops.svc" "*.Ops.svc" = true := by
  obtain ⟨hgood, hstar, hcase, hspelled, -⟩ := isGoodFor_labelwise Sample.spacious "hook.ops.svc"
  have hcovered : isCoveredBy "hook.ops.svc" "*.Ops.svc" = true :=
    (hstar "*.Ops.svc" (["Ops", "svc"].map String.toList) (by decide) (by decide)).mpr
      ⟨"hook".toList, ["ops", "svc"].map String.toList, by decide, by decide, by decide⟩
  have hhost : Sample.spacious.isGoodFor "hook.ops.svc" = true :=
    hgood.mpr (.inr ⟨by decide, "*.Ops.svc", by decide, isCoveredBy_iff_standsFor.mp hcovered⟩)
  refine ⟨by decide, by decide, (by decide : folded _ = folded _), hhost, ?_, ?_, hcovered⟩
  · rw [← hcase "Hook.OPS.svc" (by decide), hhost]
  · rw [← hspelled "HOOK.ops.svc.." (by decide : folded _ = folded _) (by decide), hhost]

/-- The text of an address with a dot after it is none: it is looked up among the names. -/
theorem isGoodFor_ne_of_dot : IsRespelled "10.0.0.7" "10.0.0.7." ∧
    Sample.spacious.isGoodFor "10.0.0.7" = true ∧
    Sample.spacious.isGoodFor "10.0.0.7." = false :=
  ⟨(by decide : folded _ = folded _), by decide, by decide⟩

end Certificate

end CertRotation
