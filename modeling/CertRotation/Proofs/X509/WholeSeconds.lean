import CertRotation.Proofs.Asn1.Reads
import CertRotation.Proofs.Time.Nanoseconds
import CertRotation.Proofs.Trust.Verdict

namespace CertRotation

namespace Asn1

/-- Every value that a reader gives has a property. -/
def Gives {α : Type} (read : Reader α) (P : α → Prop) : Prop :=
  ∀ ⦃text value rest⦄, read text = some (value, rest) → P value

namespace Gives

variable {α β : Type} {read : Reader α} {next : α → Reader β} {P : α → Prop} {Q : β → Prop}

theorem any (read : Reader α) : Gives read fun _ => True := fun _ _ _ _ => trivial

theorem pure {value : α} (h : P value) : Gives (Pure.pure value : Reader α) P := by
  rintro text found rest hread
  cases hread
  exact h

theorem bind (h : Gives read P) (hnext : ∀ value, P value → Gives (next value) Q) :
    Gives (read >>= next) Q := by
  intro text result rest hread
  rw [bind_apply] at hread
  obtain ⟨⟨value, between⟩, hfirst, hrest⟩ := Option.bind_eq_some_iff.mp hread
  exact hnext value (h hfirst) hrest

theorem bind_any (h : ∀ value, Gives (next value) Q) : Gives (read >>= next) Q :=
  (any read).bind fun value _ => h value

theorem of_within {contents : Octets} {value : α} (h : Gives read P)
    (hread : Tolerant.within read contents = some value) : P value := by
  obtain ⟨⟨found, rest⟩, hfound, rfl⟩ := Option.map_eq_some_iff.mp hread
  exact h hfound

theorem within {contents : Octets} (h : Gives read P) :
    Gives (Tolerant.within read contents : Reader α) P := by
  intro text value rest hread
  obtain ⟨found, hfound, hpair⟩ := Option.bind_eq_some_iff.mp hread
  cases hpair
  exact h.of_within hfound

theorem sequence (h : Gives read P) : Gives (Tolerant.sequence read) P :=
  bind_any fun _ => h.within

end Gives

end Asn1

namespace X509

open Asn1

theorem isWholeSecond_of_instant? {reading : ClockReading} {offset : Int} {t : Instant}
    (h : reading.instant? offset = some t) : t.IsWholeSecond := by
  unfold ClockReading.instant? at h
  split at h
  · cases h
    rfl
  · cases h

theorem isWholeSecond_of_shortTime? {text : List Char} {t : Instant}
    (h : shortTime? text = some t) : t.IsWholeSecond := by
  unfold shortTime? at h
  split at h
  · simp only [Option.bind_eq_bind, Option.bind_eq_some_iff] at h
    obtain ⟨_, -, _, -, _, -, h⟩ := h
    exact isWholeSecond_of_instant? h
  · cases h

theorem isWholeSecond_of_longTime? {text : List Char} {t : Instant}
    (h : longTime? text = some t) : t.IsWholeSecond := by
  unfold longTime? at h
  split at h
  · simp only [Option.bind_eq_bind, Option.bind_eq_some_iff] at h
    obtain ⟨_, -, _, -, _, -, _, -, h⟩ := h
    split at h
    · exact isWholeSecond_of_instant? h
    · cases h
  · cases h

section

variable {P : Instant → Prop}

theorem gives_time_of (hshort : ∀ text t, shortTime? text = some t → P t)
    (hlong : ∀ text t, longTime? text = some t → P t) : Gives time P := by
  refine .bind_any fun e => .bind_any fun text => ?_
  intro rest t left h
  split at h
  · obtain ⟨found, hfound, hpair⟩ := Option.bind_eq_some_iff.mp h
    cases hpair
    exact hshort _ _ hfound
  · split at h
    · obtain ⟨found, hfound, hpair⟩ := Option.bind_eq_some_iff.mp h
      cases hpair
      exact hlong _ _ hfound
    · cases h

theorem gives_validity (h : Gives time P) : Gives validity fun window => P window.1 ∧ P window.2 :=
  .sequence (h.bind fun _ hstart => h.bind fun _ hend => .pure ⟨hstart, hend⟩)

theorem gives_signedPart (h : Gives time P) (signed : Octets) :
    Gives (signedPart signed) fun build => ∀ algorithm signature,
      P (build algorithm signature).notBefore ∧ P (build algorithm signature).notAfter := by
  refine .bind_any fun _ => .bind_any fun _ => .bind_any fun _ => .bind_any fun _ => ?_
  refine (gives_validity h).bind fun window hwindow => ?_
  refine .bind_any fun _ => .bind_any fun _ => .bind_any fun _ => .bind_any fun _ => ?_
  exact .bind_any fun _ => .pure fun _ _ => hwindow

theorem gives_certificate (h : Gives time P) :
    Gives certificate fun cert => P cert.notBefore ∧ P cert.notAfter := by
  refine .sequence (.bind_any fun text => .bind_any fun contents => .bind_any fun left => ?_)
  refine (gives_signedPart h _).within.bind fun build hbuild => ?_
  exact .bind_any fun algorithm => .bind_any fun signature => .pure (hbuild algorithm signature)

end

end X509

namespace Certificate

theorem validity_of_gives {P : Instant → Prop} (htime : Asn1.Gives X509.time P) {der : Octets}
    {cert : Certificate} (h : ofDer der = .ok cert) : P cert.notBefore ∧ P cert.notAfter := by
  obtain ⟨-, parsed, hread, hbefore, hafter⟩ := ofDer_eq_ok h
  rw [hbefore, hafter]
  exact (X509.gives_certificate htime).of_within hread

theorem isWholeSecond_of_ofDer {der : Octets} {cert : Certificate} (h : ofDer der = .ok cert) :
    cert.notBefore.IsWholeSecond ∧ cert.notAfter.IsWholeSecond :=
  validity_of_gives (X509.gives_time_of (fun _ _ => X509.isWholeSecond_of_shortTime?)
    fun _ _ => X509.isWholeSecond_of_longTime?) h

end Certificate

theorem TrustPool.isWholeSecond_of_mem {bundle : Octets} {pool : TrustPool} {root : Certificate}
    (h : ofPem bundle = .ok pool) (hmem : root ∈ pool.roots) :
    root.notBefore.IsWholeSecond ∧ root.notAfter.IsWholeSecond := by
  rcases ofPem_cases bundle with ⟨fault, hfault, -⟩ | ⟨found, hfound, hroots⟩
  · rw [h] at hfault
    cases hfault
  · obtain rfl := Except.ok.inj (h.symm.trans hfound)
    obtain ⟨_, -, _, -, -, hread⟩ := (hroots root).mp hmem
    exact Certificate.isWholeSecond_of_ofDer hread

end CertRotation
