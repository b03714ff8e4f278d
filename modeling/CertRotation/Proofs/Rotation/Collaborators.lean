import CertRotation.Proofs.Program.Transcript
import CertRotation.Rotation.Manager
import CertRotation.Store.IdentityMap

namespace CertRotation

/-- The material in the store and the bundles that are published. -/
structure Collaborators where
  materials : IdentityMap TlsMaterial
  bundles : IdentityMap Octets

/-- A request of a manager with its answer. -/
abbrev ManagerExchange := Exchange ManagerRequest.interface

abbrev ManagerTranscript := Transcript ManagerRequest.interface

namespace ManagerRequest

def isWrite : ManagerRequest → Bool
  | put _ _ | putBundle _ _ => true
  | _ => false

/-- Whether a request goes to the store or to the publisher. -/
def isCollaboration : ManagerRequest → Bool
  | get _ | put _ _ | getBundle _ | putBundle _ _ => true
  | _ => false

theorem isWrite_of_not_isCollaboration {request : ManagerRequest}
    (h : request.isCollaboration = false) : request.isWrite = false := by
  cases request <;> first | rfl | cases h

/-- Whether a request is for fresh keys or a serial number. -/
def IsSupply (request : ManagerRequest) : Prop := request = newKey ∨ request = newSerial

theorem IsSupply.isCollaboration {request : ManagerRequest} (h : request.IsSupply) :
    request.isCollaboration = false := by
  rcases h with rfl | rfl
  · rfl
  · rfl

theorem IsSupply.ne_now {request : ManagerRequest} (h : request.IsSupply) : request ≠ now := by
  rcases h with rfl | rfl
  · exact ManagerRequest.noConfusion
  · exact ManagerRequest.noConfusion

end ManagerRequest

/-- The time that an exchange has read off the clock. -/
def ManagerExchange.reading? : ManagerExchange → Option Instant
  | ⟨.now, t⟩ => some t
  | _ => none

/-- The time that was read last. -/
def ManagerTranscript.lastReading (transcript : ManagerTranscript) : Option Instant :=
  (transcript.filterMap ManagerExchange.reading?).getLast?

namespace Collaborators

/-- What is held after an exchange: a write that succeeds replaces one value. -/
def after (held : Collaborators) : ManagerExchange → Collaborators
  | ⟨.put id material, .ok ()⟩ => { held with materials := held.materials.insert id material }
  | ⟨.putBundle id bundle, .ok ()⟩ => { held with bundles := held.bundles.insert id bundle }
  | _ => held

/-- Whether an exchange is possible: a read that succeeds gives what is held. -/
def Allows (held : Collaborators) : ManagerExchange → Prop
  | ⟨.get id, .ok found⟩ => found = held.materials.get? id
  | ⟨.getBundle id, .ok found⟩ => found = held.bundles.get? id
  | _ => True

/-- The exchanges of a transcript are possible one after another and lead from what is held before
to what is held at the end. -/
inductive Leads : Collaborators → ManagerTranscript → Collaborators → Prop
  | nil (held : Collaborators) : Leads held [] held
  | cons {held last : Collaborators} {exchange : ManagerExchange} {rest : ManagerTranscript}
      (hallows : held.Allows exchange) (hrest : Leads (held.after exchange) rest last) :
      Leads held (exchange :: rest) last

theorem leads_nil_iff {held last : Collaborators} : held.Leads [] last ↔ last = held := by
  constructor
  · intro h
    cases h
    rfl
  · rintro rfl
    exact .nil _

theorem leads_cons_iff {held last : Collaborators} {exchange : ManagerExchange}
    {rest : ManagerTranscript} :
    held.Leads (exchange :: rest) last ↔
      held.Allows exchange ∧ (held.after exchange).Leads rest last := by
  constructor
  · intro h
    cases h with
    | cons hallows hrest => exact ⟨hallows, hrest⟩
  · rintro ⟨hallows, hrest⟩
    exact .cons hallows hrest

theorem leads_append_iff {held last : Collaborators} {before rest : ManagerTranscript} :
    held.Leads (before ++ rest) last ↔ ∃ between, held.Leads before between ∧
      between.Leads rest last := by
  induction before generalizing held with
  | nil => simp [leads_nil_iff]
  | cons exchange before ih =>
      rw [List.cons_append, leads_cons_iff, ih]
      simp only [leads_cons_iff, and_assoc, exists_and_left]

theorem after_of_not_isWrite {exchange : ManagerExchange}
    (h : exchange.request.isWrite = false) (held : Collaborators) :
    held.after exchange = held := by
  rcases exchange with ⟨request, answer⟩
  cases request <;> first | rfl | cases h

theorem eq_of_leads {held last : Collaborators} {transcript : ManagerTranscript}
    (h : held.Leads transcript last)
    (hquiet : ∀ exchange ∈ transcript, exchange.request.isWrite = false) : last = held := by
  induction h with
  | nil held => rfl
  | cons hallows hrest ih =>
      rw [ih fun exchange hmem => hquiet exchange (by simp [hmem]),
        after_of_not_isWrite (hquiet _ (by simp))]

theorem leads_of_quiet {held : Collaborators} {transcript : ManagerTranscript}
    (hquiet : ∀ exchange ∈ transcript, exchange.request.isCollaboration = false) :
    held.Leads transcript held := by
  induction transcript with
  | nil => exact .nil held
  | cons exchange rest ih =>
      have hexchange := hquiet exchange (by simp)
      have hallows : held.Allows exchange := by
        rcases exchange with ⟨request, answer⟩
        cases request <;> trivial
      apply Leads.cons hallows
      rw [after_of_not_isWrite (ManagerRequest.isWrite_of_not_isCollaboration hexchange)]
      exact ih fun exchange hmem => hquiet exchange (by simp [hmem])

theorem leads_of_quiet_append {held last : Collaborators} {quiet rest : ManagerTranscript}
    (hquiet : ∀ exchange ∈ quiet, exchange.request.isCollaboration = false)
    (h : held.Leads (quiet ++ rest) last) : held.Leads rest last := by
  obtain ⟨between, hbefore, hrest⟩ := leads_append_iff.mp h
  have heq := eq_of_leads hbefore fun exchange hmem =>
    ManagerRequest.isWrite_of_not_isCollaboration (hquiet exchange hmem)
  rw [heq] at hrest
  exact hrest

theorem leads_singleton_iff {held last : Collaborators} {exchange : ManagerExchange} :
    held.Leads [exchange] last ↔ held.Allows exchange ∧ last = held.after exchange := by
  rw [leads_cons_iff, leads_nil_iff]

end Collaborators

namespace ManagerTranscript

theorem lastReading_append {before rest : ManagerTranscript} {t : Instant}
    (h : rest.lastReading = some t) : lastReading (before ++ rest) = some t := by
  rw [lastReading, List.filterMap_append, List.getLast?_append, ← lastReading, h]
  rfl

theorem lastReading_cons_of_quiet {t : Instant} {rest : ManagerTranscript}
    (h : ∀ exchange ∈ rest, exchange.request ≠ .now) :
    lastReading (⟨.now, t⟩ :: rest) = some t := by
  have hnone : rest.filterMap ManagerExchange.reading? = [] := by
    rw [List.filterMap_eq_nil_iff]
    rintro ⟨request, answer⟩ hmem
    have hrequest := h _ hmem
    cases request <;> first | rfl | exact absurd rfl hrequest
  change (t :: rest.filterMap ManagerExchange.reading?).getLast? = some t
  rw [hnone]
  rfl

end ManagerTranscript

end CertRotation
