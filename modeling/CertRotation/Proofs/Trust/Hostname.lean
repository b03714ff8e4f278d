import CertRotation.Trust.Hostname

namespace CertRotation

namespace Hostname

theorem sameIgnoringCase_self (name : List Char) : sameIgnoringCase name name = true := by
  simp [sameIgnoringCase]

theorem afterLabel?_wildcard (suffix : List Char) :
    afterLabel? ('*' :: '.' :: suffix) = some suffix := rfl

theorem isCoveredBy_self (name : String) : isCoveredBy name name = true := by
  unfold isCoveredBy
  split
  · rename_i suffix hwildcard
    simp [hwildcard, afterLabel?_wildcard, sameIgnoringCase_self]
  · exact sameIgnoringCase_self _

example : isCoveredBy "*.ops.svc.." "*.ops.svc.." = true := by decide

/-- A name is spelled with letters in either case, and with any number of dots at its end. -/
def IsSpelledAs (name spelling : String) : Prop :=
  ∃ letters dots, spelling.toList = letters ++ List.replicate dots '.' ∧
    letters.map Char.toLower = name.toList.map Char.toLower

/-- A name that has no star, no capitals and no dot at its end. -/
structure IsPlain (name : String) : Prop where
  noStar : '*' ∉ name.toList
  lower : name.toList.map Char.toLower = name.toList
  noDotAtEnd : name.toList.getLast? ≠ some '.'

theorem trimDots_append_replicate {letters : List Char} (h : letters.getLast? ≠ some '.')
    (dots : Nat) : trimDots (letters ++ List.replicate dots '.') = letters := by
  have hkeep : letters.reverse.dropWhile (· == '.') = letters.reverse := by
    rw [← List.head?_reverse] at h
    cases hletters : letters.reverse with
    | nil => rfl
    | cons last rest =>
        rw [hletters, List.head?_cons, ne_eq, Option.some.injEq] at h
        exact List.dropWhile_cons_of_neg (by simpa using h)
  rw [trimDots, List.reverse_append, List.reverse_replicate, List.dropWhile_append_of_pos, hkeep,
    List.reverse_reverse]
  intro c hmem
  simp [List.eq_of_mem_replicate hmem]

/-- A plain name covers the spellings of a plain name exactly if the two names are one. -/
theorem isCoveredBy_iff {name spelling pattern : String} (hspelling : IsSpelledAs name spelling)
    (hname : IsPlain name) (hpattern : IsPlain pattern) :
    isCoveredBy spelling pattern = true ↔ pattern = name := by
  obtain ⟨letters, dots, htext, hletters⟩ := hspelling
  have hend : letters.getLast? ≠ some '.' := by
    intro hdot
    have hlast := congrArg List.getLast? hletters
    rw [List.getLast?_map, hdot, hname.lower] at hlast
    exact hname.noDotAtEnd hlast.symm
  have hhost : trimDots spelling.toList = letters := by
    rw [htext, trimDots_append_replicate hend]
  have hkept : trimDots pattern.toList = pattern.toList := by
    simpa using trimDots_append_replicate hpattern.noDotAtEnd 0
  have hcase : isCoveredBy spelling pattern = sameIgnoringCase pattern.toList letters := by
    unfold isCoveredBy
    rw [hhost, hkept]
    split
    · rename_i suffix hwildcard
      exact absurd (hwildcard ▸ List.mem_cons_self) hpattern.noStar
    · rfl
  rw [hcase, sameIgnoringCase, beq_iff_eq, hletters, hpattern.lower, hname.lower,
    String.toList_inj]

end Hostname

namespace Certificate

variable {cert : Certificate} {host : String} {hosts : List String}

theorem isGoodFor_first_iff (h : cert.dnsNames = host :: hosts) :
    cert.isGoodFor host = true ↔
      ∀ address, IpAddress.parse? host.toList = some address → address ∈ cert.ipAddresses := by
  unfold isGoodFor
  cases IpAddress.parse? host.toList with
  | none => simp [h, Hostname.isCoveredBy_self]
  | some address => simp

end Certificate

end CertRotation
