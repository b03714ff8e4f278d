import CertRotation.Proofs.Files.Work
import CertRotation.Proofs.Files.WriteRead
import CertRotation.Proofs.Settings.Reread
import CertRotation.Proofs.Settings.Runnable
import CertRotation.Proofs.Text.Utf8

/-!
Settings that were saved to a file and are loaded from it. All is found again, but for factors of
many digits: the digits written stand for the factor, but as a number of their own they may have to
be rounded, before they are divided by a power of ten.
-/

namespace CertRotation

open FileProgram (runOn)

namespace DaemonSettings

variable {settings : DaemonSettings} {path : String} {now : Instant} {tree saved : FileTree}

theorem read_of_save (h : (settings.save path).Runs tree () saved) :
    saved.read path = .ok (Utf8.encode settings.fileText) := by
  obtain ⟨between, hwrite⟩ : ∃ between,
      (FileWork.call (.write path (Utf8.encode settings.fileText))
        (.config (.unwritableFile path))).Runs between () saved := by
    unfold save at h
    split at h
    · exact ⟨tree, h⟩
    · exact ⟨tree, h⟩
    · obtain ⟨_, between, -, hwrite⟩ := FileWork.Runs.of_bind h
      exact ⟨between, hwrite⟩
  have hrun := hwrite.of_call
  cases hwritten : between.write path (Utf8.encode settings.fileText) with
  | error fault =>
      rw [FileOperation.run, hwritten] at hrun
      cases hrun
  | ok written =>
      rw [FileOperation.run, hwritten] at hrun
      cases hrun
      exact FileTree.read_of_write hwritten

theorem runOn_load {text : String} (h : tree.read path = .ok (Utf8.encode text)) :
    runOn (load path now).run tree = (ofText text now, tree) := by
  have hread : FileOperation.run (.read path) tree = (.ok (Utf8.encode text), tree) := by
    rw [FileOperation.run, h]
  rw [load, (FileWork.runs_call hread _).runOn_bind, Utf8.decode?_encode]
  rfl

theorem reread?_eq_some_iff :
    settings.reread? = some settings ↔
      ∀ factor ∈ [settings.rotation.jitterMin, settings.rotation.jitterMax],
        factor.reread? = some factor := by
  obtain ⟨outputDir, ⟨certSeconds, low, high, retrySeconds, organization⟩, webhooks⟩ := settings
  simp only [reread?, RotationSettings.reread?, List.forall_mem_cons]
  cases low.reread? with
  | none => simp
  | some low' =>
      cases high.reread? with
      | none => simp
      | some high' => simp

theorem exists_reread? (h : settings.check now = .ok ()) :
    ∃ low high, settings.rotation.jitterMin.reread? = some low ∧
      settings.rotation.jitterMax.reread? = some high ∧
      settings.reread? = some { settings with
        rotation := { settings.rotation with jitterMin := low, jitterMax := high } } := by
  have hreread : ∀ factor ∈ [settings.rotation.jitterMin, settings.rotation.jitterMax],
      ∃ reread, factor.reread? = some reread := by
    intro factor hmem
    obtain ⟨hfinite, hpos, hlt⟩ := RotationSettings.factors_of_check (check_eq_ok h).1 factor hmem
    obtain ⟨-, -, reread, -, -, hreread⟩ := Binary64.exists_reread?_eq hfinite hpos hlt
    exact ⟨reread, hreread⟩
  obtain ⟨low, hlow⟩ := hreread settings.rotation.jitterMin (by simp)
  obtain ⟨high, hhigh⟩ := hreread settings.rotation.jitterMax (by simp)
  refine ⟨low, high, hlow, hhigh, ?_⟩
  rw [reread?, RotationSettings.reread?, hlow, hhigh]
  rfl

section save

variable (hsave : (settings.save path).Runs tree () saved)
include hsave

theorem runOn_load_of_save {reread : DaemonSettings} (hreread : settings.reread? = some reread) :
    runOn (load path now).run saved = ((reread.check now).map fun _ => reread, saved) := by
  rw [runOn_load (read_of_save hsave), settings.ofText_fileText hreread]

theorem runs_load_iff (hcheck : settings.check now = .ok ()) :
    (load path now).Runs saved settings saved ↔
      ∀ factor ∈ [settings.rotation.jitterMin, settings.rotation.jitterMax],
        factor.reread? = some factor := by
  obtain ⟨low, high, -, -, hreread⟩ := exists_reread? hcheck
  rw [← reread?_eq_some_iff, FileWork.Runs, runOn_load_of_save hsave hreread, hreread,
    Prod.mk.injEq, Option.some.injEq]
  constructor
  · rintro ⟨hloaded, -⟩
    generalize ({ settings with rotation := _ } : DaemonSettings) = reread at hloaded ⊢
    cases hagain : reread.check now with
    | error failure =>
        rw [hagain] at hloaded
        cases hloaded
    | ok =>
        rw [hagain] at hloaded
        exact Except.ok.inj hloaded
  · intro heq
    rw [heq, hcheck]
    exact ⟨rfl, rfl⟩

end save

/-- Settings that are accepted, saved to a file and loaded at the same time. What is loaded are the
settings with their factors read again, if they are accepted. These are the settings themselves
exactly if both factors are read back, as they are if fifteen digits stand for them and they are not
below a hundred-millionth. -/
theorem load_of_save (hcheck : settings.check now = .ok ())
    (hsave : (settings.save path).Runs tree () saved) :
    (∃ low high, settings.rotation.jitterMin.reread? = some low ∧
      settings.rotation.jitterMax.reread? = some high ∧
      let reread := { settings with
        rotation := { settings.rotation with jitterMin := low, jitterMax := high } }
      runOn (load path now).run saved = ((reread.check now).map fun _ => reread, saved)) ∧
    ((load path now).Runs saved settings saved ↔
      ∀ factor ∈ [settings.rotation.jitterMin, settings.rotation.jitterMax],
        factor.reread? = some factor) ∧
    ((∀ factor ∈ [settings.rotation.jitterMin, settings.rotation.jitterMax],
        factor.IsShort ∧ (10 : ℚ) ^ (-8 : ℤ) ≤ factor.value) →
      (load path now).Runs saved settings saved) := by
  obtain ⟨low, high, hlow, hhigh, hreread⟩ := exists_reread? hcheck
  refine ⟨⟨low, high, hlow, hhigh, runOn_load_of_save hsave hreread⟩,
    runs_load_iff hsave hcheck, ?_⟩
  intro hshort
  rw [runs_load_iff hsave hcheck]
  intro factor hmem
  obtain ⟨hfinite, -, hlt⟩ :=
    RotationSettings.factors_of_check (check_eq_ok hcheck).1 factor hmem
  obtain ⟨hshort, hlow⟩ := hshort factor hmem
  exact Binary64.reread?_eq_self hshort hlow hfinite hlt

end DaemonSettings

namespace Sample

def settingsPath : String := "etc/webhooks/config.json"

def settingsDirectories : FileTree :=
  ⟨[(["etc", "webhooks"], .directory), (["etc"], .directory)]⟩

theorem exists_save (settings : DaemonSettings) :
    ∃ saved, (settings.save settingsPath).Runs FileTree.empty () saved := by
  have hparent : FilePath.parent? settingsPath = some "etc/webhooks" := by rfl
  have hmake : FileOperation.run (.makeDirectories "etc/webhooks") FileTree.empty =
      (.ok (), settingsDirectories) := by rfl
  have hlocate : settingsDirectories.locate settingsPath true =
      .ok ["etc", "webhooks", "config.json"] := by rfl
  have hwrite : ∃ saved, FileOperation.run (.write settingsPath (Utf8.encode settings.fileText))
      settingsDirectories = (.ok (), saved) := by
    rw [FileOperation.run, FileTree.write, hlocate]
    exact ⟨_, rfl⟩
  obtain ⟨saved, hwrite⟩ := hwrite
  refine ⟨saved, ?_⟩
  unfold DaemonSettings.save
  split
  · next hnone => exact absurd (hparent.symm.trans hnone) (by decide)
  · next hempty => exact absurd (hparent.symm.trans hempty) (by decide)
  · next parent _ hparent' =>
      cases hparent.symm.trans hparent'
      exact (FileWork.runs_call hmake _).bind (FileWork.runs_call hwrite _)

def upTo (factor : Binary64) : DaemonSettings where
  outputDir := "out"
  rotation := { RotationSettings.defaults with jitterMax := factor }
  webhooks := [identity]

/-- The number that follows the one nearest to 0.91. -/
def fine : Binary64 := .ofDecimal false 9100000000000001 (-16)

def rough : Binary64 := .ofDecimal false 91 (-2)

theorem isShort_factors : ∀ factor ∈ [DaemonSettings.sample.rotation.jitterMin,
    DaemonSettings.sample.rotation.jitterMax],
    factor.IsShort ∧ (10 : ℚ) ^ (-8 : ℤ) ≤ factor.value := by
  have hlow : DaemonSettings.sample.rotation.jitterMin = usual := rfl
  have hhigh : DaemonSettings.sample.rotation.jitterMax =
      .finite false 8106479329266893 (-53) (by decide) := by decide +kernel
  intro factor hmem
  simp only [List.mem_cons, List.not_mem_nil, or_false] at hmem
  obtain rfl | rfl := hmem
  · refine ⟨⟨7, by decide, -1, rfl⟩, ?_⟩
    rw [hlow, usual_eq, Binary64.value]
    norm_num
  · refine ⟨⟨9, by decide, -1, rfl⟩, ?_⟩
    rw [hhigh, Binary64.value]
    norm_num

end Sample

namespace DaemonSettings

theorem load_of_save_sample :
    ∃ saved, sample.check Sample.readAt = .ok () ∧
      (sample.save Sample.settingsPath).Runs FileTree.empty () saved ∧
      (load Sample.settingsPath Sample.readAt).Runs saved sample saved := by
  obtain ⟨saved, hsave⟩ := Sample.exists_save sample
  have hcheck : sample.check Sample.readAt = .ok () := by decide +kernel
  exact ⟨saved, hcheck, hsave, (load_of_save hcheck hsave).2.2 Sample.isShort_factors⟩

/-- The number after 0.91 is written with sixteen digits, which are more than a significand holds. -/
theorem load_ne_of_save_fine :
    ∃ saved, (Sample.upTo Sample.fine).check Sample.readAt = .ok () ∧
      ((Sample.upTo Sample.fine).save Sample.settingsPath).Runs FileTree.empty () saved ∧
      (load Sample.settingsPath Sample.readAt).Runs saved (Sample.upTo Sample.rough) saved ∧
      Sample.upTo Sample.rough ≠ Sample.upTo Sample.fine := by
  obtain ⟨saved, hsave⟩ := Sample.exists_save (Sample.upTo Sample.fine)
  have hreread : (Sample.upTo Sample.fine).reread? = some (Sample.upTo Sample.rough) := by
    decide +kernel
  have hagain : (Sample.upTo Sample.rough).check Sample.readAt = .ok () := by decide +kernel
  refine ⟨saved, by decide +kernel, hsave, ?_, by decide +kernel⟩
  rw [FileWork.Runs, runOn_load_of_save hsave hreread, hagain]
  rfl

end DaemonSettings

end CertRotation
