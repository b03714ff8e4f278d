import CertRotation.Proofs.Rotation.Collaborators
import CertRotation.Proofs.Trust.Chain

namespace CertRotation

open ManagerRequest (ask)

namespace Generation

/-- A generation holds together at every time at which its authority is valid. -/
def IsSound (generation : Generation) : Prop :=
  ∀ t, generation.ca.isValidAt t = true →
    ∃ leaf, generation.material.verifyChain generation.bundle t = .ok (leaf, generation.ca)

theorem mint_onlyAsks (id : WebhookIdentity) (organization : List String) (duration : Duration)
    (now : Instant) :
    (mint id organization duration now).run.OnlyAsks ManagerRequest.IsSupply := by
  have hkey : (ManagerRequest.ask .newKey).OnlyAsks ManagerRequest.IsSupply :=
    Program.onlyAsks_perform_iff.mpr (.inl rfl)
  have hserial : (ManagerRequest.ask .newSerial).OnlyAsks ManagerRequest.IsSupply :=
    Program.onlyAsks_perform_iff.mpr (.inr rfl)
  have hdone : ∀ {α : Type} (value : α),
      (Program.done value : Work α).OnlyAsks ManagerRequest.IsSupply := fun _ => trivial
  refine .run_bind hkey fun caKey => .run_bind (hdone _) fun ca => .run_bind hkey fun key => ?_
  refine .run_bind ?_ fun serial => .run_bind (hdone _) fun leaf => .run_bind (hdone _) fun _ => ?_
  · rw [ExceptT.run_lift]
    exact hserial.bind fun _ => hdone _
  · exact .run_bind (hdone _) fun _ => hdone _

theorem mint_yields_ok {id : WebhookIdentity} {organization : List String} {duration : Duration}
    {now : Instant} {transcript : ManagerTranscript} {generation : Generation}
    (h : (mint id organization duration now).run.Yields transcript (.ok generation)) :
    ∃ caKey key serial leaf keyPem,
      Issuance.issueAuthority (id.caConfig organization) caKey duration now =
        .ok generation.ca ∧
      Issuance.issueLeaf (id.leafConfig organization) key generation.ca caKey duration now
        serial = .ok leaf ∧
      generation.material = ⟨Utf8.encode keyPem, Utf8.encode leaf.pem⟩ ∧
      generation.bundle = Utf8.encode generation.ca.pem ∧
      generation.material.verify generation.bundle now = .ok () := by
  simp only [mint, Program.yields_run_bind_iff, reduceCtorEq, false_and, exists_false, false_or,
    ExceptT.run_mk, ExceptT.run_lift, Program.yields_done_iff] at h
  obtain ⟨caKey, _, _, -, -, ca, _, _, -, ⟨-, hca⟩, key, _, _, -, -, h⟩ := h
  obtain ⟨serial, _, _, -, -, leaf, _, _, -, ⟨-, hleaf⟩, h⟩ := h
  obtain ⟨keyPem, _, _, -, ⟨-, hkey⟩, ⟨⟩, _, _, -, ⟨-, hverify⟩, h⟩ := h
  obtain ⟨-, hgeneration⟩ := Program.yields_pure_iff.mp h
  obtain rfl := Except.ok.inj hgeneration
  exact ⟨caKey, key, serial, leaf, keyPem, hca.symm, hleaf.symm, rfl, rfl, hverify.symm⟩

theorem mint_yields_of_verify {id : WebhookIdentity} {organization : List String}
    {duration : Duration} {now : Instant} {caKey key : PrivateKey} {serial : LeafSerial}
    {ca leaf : Certificate} {keyPem : String}
    (hca : Issuance.issueAuthority (id.caConfig organization) caKey duration now = .ok ca)
    (hleaf : Issuance.issueLeaf (id.leafConfig organization) key ca caKey duration now serial =
      .ok leaf)
    (hkey : key.encodePem = .ok keyPem)
    (hverify : TlsMaterial.verify ⟨Utf8.encode keyPem, Utf8.encode leaf.pem⟩ (Utf8.encode ca.pem)
      now = .ok ()) :
    (mint id organization duration now).run.Yields
      [⟨.newKey, .ok caKey⟩, ⟨.newKey, .ok key⟩, ⟨.newSerial, serial⟩]
      (.ok ⟨⟨Utf8.encode keyPem, Utf8.encode leaf.pem⟩, Utf8.encode ca.pem, ca⟩) := by
  have hdone : ∀ {α : Type} {computed : Except Failure α} {value : α}, computed = .ok value →
      (ExceptT.mk (Program.done computed) : ExceptT Failure Work α).run.Yields [] (.ok value) := by
    rintro α computed value rfl
    exact .done _
  have hasked : ∀ key, (ExceptT.mk (ask .newKey) : ExceptT Failure Work PrivateKey).run.Yields
      [⟨.newKey, .ok key⟩] (.ok key) := fun _ => .ask (.done _)
  have hserial : (ExceptT.lift (ask .newSerial) : ExceptT Failure Work LeafSerial).run.Yields
      [⟨.newSerial, serial⟩] (.ok serial) := .ask (.done _)
  refine (hasked caKey).run_bind ?_
  refine (hdone hca).run_bind ?_
  refine (hasked key).run_bind ?_
  refine hserial.run_bind ?_
  refine (hdone hleaf).run_bind ?_
  refine (hdone hkey).run_bind ?_
  exact (hdone hverify).run_bind (.done _)

/-- A generation that was minted is sound. The check at its minting says all about its files; at
another time only the validity of the leaf is new, and that is the validity of the authority. -/
theorem isSound_of_mint {id : WebhookIdentity} {organization : List String} {duration : Duration}
    {now : Instant} {transcript : ManagerTranscript} {generation : Generation}
    (h : (mint id organization duration now).run.Yields transcript (.ok generation)) :
    generation.IsSound ∧ generation.ca.isValidAt now = true := by
  obtain ⟨caKey, key, serial, leaf, keyPem, hca, hleaf, hmaterial, hbundle, hverify⟩ :=
    mint_yields_ok h
  have hcerts : Certificate.decodePem generation.material.certPem = .ok [leaf] := by
    rw [hmaterial]
    exact Certificate.decodePem_pem (Issuance.ofDer_issueLeaf hleaf)
  have hpool := TrustPool.ofPem_pem (Issuance.ofDer_issueAuthority hca)
  obtain ⟨first, root, hchain⟩ := TlsMaterial.verify_eq_ok_iff.mp hverify
  rw [hbundle] at hchain
  obtain ⟨_, chain, pool, host, _, -, hcerts', hpool', -, hfound, -⟩ :=
    TlsMaterial.verifyChain_eq_ok_iff.mp hchain
  obtain ⟨rfl, rfl⟩ : leaf = first ∧ [] = chain := by
    simpa using Except.ok.inj (hcerts.symm.trans hcerts')
  obtain ⟨-, hissuer, -⟩ := TrustPool.verify_eq_ok_iff.mp hfound
  obtain ⟨hroot, -, hvalid⟩ := TrustPool.findIssuer_eq_ok hissuer
  obtain rfl : ⟨[generation.ca], by simp⟩ = pool := Except.ok.inj (hpool.symm.trans hpool')
  obtain rfl : root = generation.ca := List.mem_singleton.mp hroot
  constructor
  · intro t ht
    obtain ⟨hbefore, hafter⟩ := Issuance.validity_eq_of_issue hca hleaf
    have hlater : leaf.isValidAt t = true := by
      rw [← ht]
      simp only [Certificate.isValidAt, Certificate.isExpiredAt, Certificate.isNotYetValidAt,
        hbefore, hafter]
    rw [hbundle]
    exact ⟨leaf, TlsMaterial.verifyChain_of_isValidAt (Issuance.ofDer_issueAuthority hca) hchain
      hlater ht⟩
  · exact hvalid

end Generation

end CertRotation
