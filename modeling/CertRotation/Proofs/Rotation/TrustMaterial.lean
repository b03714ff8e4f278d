import CertRotation.Proofs.Rotation.History

namespace CertRotation

namespace IsCoherent

variable {first manager next : RotationManager} {held last : Collaborators}
  {past transcript : ManagerTranscript}

theorem holdsTogether_of_rotates {ca : Certificate} (h : IsCoherent first manager held past)
    (hrotates : manager.Rotates transcript (.ok ca, next)) (hleads : held.Leads transcript last) :
    ∃ ca t, next.ca = some ca ∧ transcript.lastReading = some t ∧
      last.HoldsTogether first.identity ca t := by
  obtain ⟨now, material, bundle, leaf, hreading, hca, hmaterial, hbundle, hchain⟩ :=
    hrotates.committed_of_ok h.isSound hleads
  rw [h.identity] at hmaterial hbundle
  exact ⟨ca, now, hca, hreading,
    Collaborators.holdsTogether_of_verifyChain hmaterial hbundle hchain⟩

theorem holdsTogether_of_loads {ca : Certificate} (h : IsCoherent first manager held past)
    (hempty : manager.ca = none) (hloads : manager.Loads transcript (.ok ca, next))
    (hleads : held.Leads transcript last) :
    ∃ ca t, next.ca = some ca ∧ transcript.lastReading = some t ∧
      last.HoldsTogether first.identity ca t := by
  cases hloads with
  | cached hca =>
      rw [hempty] at hca
      cases hca
  | @found material bundle now leaf _ hca hchain =>
      simp only [Collaborators.leads_cons_iff, Collaborators.leads_nil_iff] at hleads
      obtain ⟨hmaterial, hbundle, -, rfl⟩ := hleads
      rw [← h.identity]
      exact ⟨ca, now, rfl, rfl, Collaborators.holdsTogether_of_verifyChain (Eq.symm hmaterial)
        (Eq.symm hbundle) hchain⟩
  | made hca hreads hrotates =>
      obtain ⟨between, -, hrest⟩ := Collaborators.leads_append_iff.mp hleads
      have hbefore : IsCoherent first manager between past :=
        .of_ca_eq_none h.identity h.isSound hca
      obtain ⟨ca, t, hnext, hreading, htogether⟩ := hbefore.holdsTogether_of_rotates hrotates hrest
      exact ⟨ca, t, hnext, ManagerTranscript.lastReading_append hreading, htogether⟩

theorem holdsTogether_of_waits (h : IsCoherent first manager held past)
    (hwaits : manager.Waits transcript (.ok .rotated, next)) (hleads : held.Leads transcript last) :
    ∃ ca t, next.ca = some ca ∧ transcript.lastReading = some t ∧
      last.HoldsTogether first.identity ca t := by
  generalize hend : (Except.ok CycleOutcome.rotated, next) = ending at hwaits
  cases hwaits with
  | interrupted hwaiting => cases hend
  | @rotated waiting rest result next hwaiting hrotates =>
      cases result with
      | error failure => cases hend
      | ok ca =>
          cases hend
          have hrest := Collaborators.leads_of_quiet_append hwaiting hleads
          obtain ⟨ca, t, hnext, hreading, htogether⟩ := h.holdsTogether_of_rotates hrotates hrest
          exact ⟨ca, t, hnext, ManagerTranscript.lastReading_append hreading, htogether⟩

theorem holdsTogether_of_cycles (h : IsCoherent first manager held past)
    (hcycles : manager.Cycles transcript (.ok .rotated, next))
    (hleads : held.Leads transcript last) :
    ∃ ca t, next.ca = some ca ∧ transcript.lastReading = some t ∧
      last.HoldsTogether first.identity ca t := by
  generalize hend : (Except.ok CycleOutcome.rotated, next) = ending at hcycles
  cases hcycles with
  | cancelled => cases hend
  | @retried rest result next hpending hrotates =>
      cases result with
      | error failure => cases hend
      | ok ca =>
          cases hend
          obtain ⟨-, hrest⟩ := Collaborators.leads_cons_iff.mp hleads
          obtain ⟨ca, t, hnext, hreading, htogether⟩ := h.holdsTogether_of_rotates hrotates hrest
          exact ⟨ca, t, hnext, @ManagerTranscript.lastReading_append [_] _ _ hreading, htogether⟩
  | unloaded hpending hloads => cases hend
  | @waited loading rest ca loaded ending hpending hloads hwaits =>
      cases hend
      obtain ⟨-, hrest⟩ := Collaborators.leads_cons_iff.mp hleads
      obtain ⟨between, hloading, hwaiting⟩ := Collaborators.leads_append_iff.mp hrest
      obtain ⟨ca, t, hnext, hreading, htogether⟩ :=
        ((isKept first).loads h hloads hloading).holdsTogether_of_waits hwaits hwaiting
      refine ⟨ca, t, hnext, ?_, htogether⟩
      exact @ManagerTranscript.lastReading_append [_] _ _
        (ManagerTranscript.lastReading_append hreading)

end IsCoherent

/-- Whenever a call without an authority gets one, and whenever a cycle has rotated, the stored
material and the published bundle hold together at the time that the call has read last, and the
authority of the manager is the certificate of the bundle that issued the leaf. This holds in every
history, also where the generation that is written had been pending since an earlier call. -/
theorem holdsTogether_of_reaches {first manager next : RotationManager}
    {start held last : Collaborators} {past transcript : ManagerTranscript}
    (hreaches : Reaches first start manager held past)
    (hrun : (∃ ca, manager.ca = none ∧ manager.loadOrGenerate.Yields transcript (.ok ca, next)) ∨
      manager.cycle.Yields transcript (.ok .rotated, next))
    (hleads : held.Leads transcript last) :
    ∃ ca t, next.ca = some ca ∧ transcript.lastReading = some t ∧
      last.HoldsTogether first.identity ca t := by
  have hcoherent := isCoherent_of_reaches hreaches
  rcases hrun with ⟨ca, hempty, hrun⟩ | hrun
  · exact hcoherent.holdsTogether_of_loads hempty (RotationManager.loads_of_yields hrun) hleads
  · exact hcoherent.holdsTogether_of_cycles (RotationManager.cycles_of_yields hrun) hleads

theorem holdsTogether_of_reaches_sample :
    ∃ ca next, Sample.manager.ca = none ∧
      Sample.manager.loadOrGenerate.Yields Sample.loading (.ok ca, next) ∧
      Sample.held.Leads Sample.loading Sample.held ∧
      ∃ ca t, next.ca = some ca ∧ Sample.loading.lastReading = some t ∧
        Sample.held.HoldsTogether Sample.manager.identity ca t := by
  obtain ⟨ca, hrun⟩ := Sample.yields_loading
  exact ⟨ca, _, rfl, hrun, Sample.leads_loading,
    holdsTogether_of_reaches (.start rfl rfl) (.inl ⟨ca, rfl, hrun⟩) Sample.leads_loading⟩

end CertRotation
