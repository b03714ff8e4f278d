import CertRotation.Proofs.Program.Transcript
import CertRotation.Proofs.Time.Nanoseconds
import CertRotation.Proofs.Time.Order
import CertRotation.Rotation.Manager

namespace CertRotation

section Deadline

variable {notBefore notAfter : Instant}

theorem validityWindow_nonneg (notBefore notAfter : Instant) :
    0 ≤ (validityWindow notBefore notAfter).nanoseconds := by
  rw [validityWindow]
  split
  · exact Int.le_refl 0
  · rename_i h
    exact Int.not_lt.mp h

theorem validityWindow_eq (hstart : notBefore.IsRegular) (hend : notAfter.IsRegular)
    (h : notBefore ≤ notAfter) :
    validityWindow notBefore notAfter = ⟨notAfter.nanoseconds - notBefore.nanoseconds⟩ := by
  have hle := (Instant.le_iff_nanoseconds hstart hend).mp h
  have hlength : ¬(⟨notAfter.nanoseconds - notBefore.nanoseconds⟩ : Duration) < Duration.zero :=
    Int.not_lt.mpr (Int.sub_nonneg.mpr hle)
  rw [validityWindow, Instant.since_eq_sub hend hstart]
  exact if_neg hlength

theorem rotationDeadline_nanoseconds (hstart : notBefore.IsRegular) (jitter : Jitter) :
    (rotationDeadline notBefore notAfter jitter).IsRegular ∧
      (rotationDeadline notBefore notAfter jitter).nanoseconds = notBefore.nanoseconds +
        ((jitter (validityWindow notBefore notAfter)).clamp Duration.zero
          (validityWindow notBefore notAfter)).nanoseconds :=
  Instant.plus_of_isRegular hstart _

theorem rotationDeadline_bounds (hstart : notBefore.IsRegular) (hend : notAfter.IsRegular)
    (h : notBefore ≤ notAfter) (jitter : Jitter) :
    notBefore ≤ rotationDeadline notBefore notAfter jitter ∧
      rotationDeadline notBefore notAfter jitter ≤ notAfter := by
  obtain ⟨hregular, hsum⟩ := @rotationDeadline_nanoseconds _ notAfter hstart jitter
  obtain ⟨hlow, hhigh⟩ := @Duration.clamp_bounds (jitter (validityWindow notBefore notAfter)) _
    (validityWindow_nonneg notBefore notAfter)
  rw [Instant.le_iff_nanoseconds hstart hregular, Instant.le_iff_nanoseconds hregular hend, hsum]
  rw [validityWindow_eq hstart hend h] at hlow hhigh ⊢
  simp only at hhigh
  omega

theorem rotationDeadline_whole (hstart : notBefore.IsRegular) (hend : notAfter.IsRegular)
    (h : notBefore ≤ notAfter) : rotationDeadline notBefore notAfter id = notAfter := by
  obtain ⟨hregular, hsum⟩ := @rotationDeadline_nanoseconds _ notAfter hstart id
  refine Instant.eq_of_nanoseconds_eq hregular hend ?_
  rw [hsum, id, Duration.clamp_self (validityWindow_nonneg _ _), validityWindow_eq hstart hend h]
  change _ + (_ - _) = _
  omega

end Deadline

namespace RotationManager

theorem nextDeadline_yields_iff {manager : RotationManager} {ca : Certificate}
    (hca : manager.ca = some ca) {asked : Transcript ManagerRequest.interface}
    {deadline : Option Instant} :
    manager.nextDeadline.Yields asked deadline ↔
      ∃ offset, asked = [⟨.jitter (validityWindow ca.notBefore ca.notAfter), offset⟩] ∧
        deadline = some (rotationDeadline ca.notBefore ca.notAfter fun _ => offset) := by
  rw [nextDeadline, hca]
  constructor
  · intro h
    obtain ⟨offset, _, rfl, hrest⟩ := Program.yields_ask_iff.mp h
    obtain ⟨rfl, rfl⟩ := Program.yields_done_iff.mp hrest
    exact ⟨offset, rfl, rfl⟩
  · rintro ⟨offset, rfl, rfl⟩
    exact .ask (.done _)

end RotationManager

end CertRotation
