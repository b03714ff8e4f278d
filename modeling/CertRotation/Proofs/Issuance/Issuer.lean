import CertRotation.Proofs.Issuance.Record

/-!
The name of its issuer that a leaf bears. It is the name of the authority with the organizations
joined, and so the authority's own name as long as that has one organization at most. A leaf of an
authority with more of them does not name its authority.
-/

namespace CertRotation

open Asn1

variable {config : SubjectConfig} {key caKey : PrivateKey} {ca leaf : Certificate}
  {duration : Duration} {now : Instant} {serial : LeafSerial}

theorem DistinguishedName.joined_eq_self_iff {name : DistinguishedName} :
    name.joined = name ↔ name.organization.length ≤ 1 := by
  obtain ⟨commonName, organization⟩ := name
  rcases organization with _ | ⟨first, _ | ⟨second, more⟩⟩
  · simp [joined]
  · simp [joined]
  · simp [joined]

namespace Issuance

/-- A leaf is issued by its authority if the authority is one, has one organization at most, and the
signature holds under it. -/
theorem isIssuedBy_of_issueLeaf_iff
    (h : issueLeaf config key ca caKey duration now serial = .ok leaf) :
    leaf.IsIssuedBy ca ↔ ca.isCa = true ∧ ca.subject.organization.length ≤ 1 ∧
      leaf.signatureFault? ca = none := by
  obtain ⟨hissuer, -⟩ := issueLeaf_contents h
  rw [← DistinguishedName.joined_eq_self_iff, ← hissuer]
  constructor
  · rintro ⟨hca, hsubject, hsignature⟩
    exact ⟨hca, hsubject.symm, hsignature⟩
  · rintro ⟨hca, hsubject, hsignature⟩
    exact ⟨hca, hsubject.symm, hsignature⟩

/-- The issuer of a leaf is its authority's name with the organizations joined. It is the name
itself exactly if there is one organization at most. Bundles with the authority then have an issuer
for the leaf, while the authority is valid and if the signatures of its key hold; with more
organizations the authority is never found. -/
theorem issuer_of_issueLeaf (h : issueLeaf config key ca caKey duration now serial = .ok leaf) :
    leaf.issuer = ⟨ca.subject.commonName, if ca.subject.organization = [] then []
      else [", ".intercalate ca.subject.organization]⟩ ∧
    (leaf.issuer = ca.subject ↔ ca.subject.organization.length ≤ 1) ∧
    ∀ (pool : TrustPool) (t : Instant), ca ∈ pool.roots →
      (ca.subject.organization.length ≤ 1 → ca.isCa = true → ca.isValidAt t = true →
        ca.Certifies caKey → caKey.SignsSoundly →
          ∃ root, pool.findIssuer leaf t = .ok root ∧ root.subject = ca.subject) ∧
      (1 < ca.subject.organization.length →
        pool.findIssuer leaf t ≠ .ok ca ∧ ∀ host, pool.verify leaf host t ≠ .ok ca) := by
  obtain ⟨hissuer, -⟩ := issueLeaf_contents h
  have hiff : leaf.issuer = ca.subject ↔ ca.subject.organization.length ≤ 1 := by
    rw [hissuer, DistinguishedName.joined_eq_self_iff]
  refine ⟨?_, hiff, fun pool t hmem => ⟨?_, ?_⟩⟩
  · simp only [hissuer, DistinguishedName.joined, List.isEmpty_iff]
  · intro hone hca hvalid hcertifies hsound
    have hsignature := signatureFault?_of_issueLeaf hsound hcertifies h
    have hissued : leaf.IsIssuedBy ca :=
      (isIssuedBy_of_issueLeaf_iff h).mpr ⟨hca, hone, hsignature⟩
    obtain ⟨root, hroot⟩ := TrustPool.exists_findIssuer_iff.mpr ⟨ca, hmem, hissued, hvalid⟩
    obtain ⟨-, hfound, -⟩ := TrustPool.findIssuer_eq_ok hroot
    exact ⟨root, hroot, hfound.subject.trans (hiff.mpr hone)⟩
  · intro hmany
    have hnotIssued : ¬leaf.IsIssuedBy ca := by
      rw [isIssuedBy_of_issueLeaf_iff h]
      rintro ⟨-, hone, -⟩
      exact absurd hone (Nat.not_le.mpr hmany)
    have hnotFound : pool.findIssuer leaf t ≠ .ok ca := by
      intro hfound
      obtain ⟨-, hissued, -⟩ := TrustPool.findIssuer_eq_ok hfound
      exact hnotIssued hissued
    exact ⟨hnotFound, fun host hverify => hnotFound (TrustPool.verify_eq_ok_iff.mp hverify).2.1⟩

theorem issuer_of_issueLeaf_sample :
    (PrivateKey.rsa Sample.signingKey).SignsSoundly ∧ ∃ ca leaf root, ∃ pool : TrustPool,
      issueLeaf (Sample.identity.leafConfig ["ops"]) (.rsa Sample.signingKey) ca
        (.rsa Sample.signingKey) (.ofSeconds 1) Sample.issuedAt (.ofRandom 7) = .ok leaf ∧
      ca.subject.organization = ["ops"] ∧ leaf.issuer = ca.subject ∧ ca ∈ pool.roots ∧
      ca.isCa = true ∧ ca.isValidAt Sample.issuedAt = true ∧
      ca.Certifies (.rsa Sample.signingKey) ∧ pool.findIssuer leaf Sample.issuedAt = .ok root := by
  obtain ⟨ca, leaf, hca, hleaf⟩ := Sample.exists_issue
  obtain ⟨hisCa, hsubject, hcertifies⟩ := issueAuthority_contents hca
  have horganization : ca.subject.organization = ["ops"] := by
    rw [hsubject]
    rfl
  have hone : ca.subject.organization.length ≤ 1 := by
    rw [horganization]
    decide
  obtain ⟨hfrom, hto⟩ := isValidAt_of_issueAuthority hca (by decide)
  have hvalid : ca.isValidAt Sample.issuedAt = true := Certificate.isValidAt_iff.mpr ⟨hfrom, hto⟩
  obtain ⟨-, hissuer, hpool⟩ := issuer_of_issueLeaf hleaf
  obtain ⟨hfinds, -⟩ := hpool ⟨[ca], by simp⟩ Sample.issuedAt List.mem_cons_self
  obtain ⟨root, hroot, -⟩ := hfinds hone hisCa hvalid hcertifies Sample.signsSoundly_signingKey
  exact ⟨Sample.signsSoundly_signingKey, ca, leaf, root, _, hleaf, horganization,
    hissuer.mpr hone, List.mem_cons_self, hisCa, hvalid, hcertifies, hroot⟩

end Issuance

/-! An authority of two organizations, which no leaf of its own names. -/

namespace Sample

def pluralName : Octets :=
  sequence [X509.encodeAttribute Oid.commonName "ca", X509.encodeAttribute Oid.organizationName "a",
    X509.encodeAttribute Oid.organizationName "b"]

/-- The authority of that name, for the sample key. -/
def pluralAuthority : Octets :=
  sequence [
    sequence [explicit 0 (natural X509.Template.version), natural 1, algorithm, pluralName,
      sequence [X509.encodeTime ⟨0, 0⟩, X509.encodeTime ⟨1000000000, 0⟩], pluralName,
      (PrivateKey.rsa signingKey).publicKeyInfo,
      explicit 3 (sequence [X509.authorityExtension])],
    algorithm, bitString []]

/-- The authority, and a leaf that it signs. -/
def pluralIssuance : Except Failure (Certificate × Certificate) := do
  let ca ← Certificate.ofDer pluralAuthority
  let leaf ← Issuance.issueLeaf (identity.leafConfig ["ops"]) (.rsa signingKey) ca
    (.rsa signingKey) (.ofSeconds 1) issuedAt (.ofRandom 7)
  return (ca, leaf)

end Sample

theorem Issuance.issuer_ne_of_plural : ∃ ca leaf,
    Certificate.ofDer Sample.pluralAuthority = .ok ca ∧
    issueLeaf (Sample.identity.leafConfig ["ops"]) (.rsa Sample.signingKey) ca
      (.rsa Sample.signingKey) (.ofSeconds 1) Sample.issuedAt (.ofRandom 7) = .ok leaf ∧
    ca.subject = ⟨"ca", ["a", "b"]⟩ ∧ leaf.issuer = ⟨"ca", ["a, b"]⟩ ∧
    leaf.issuer ≠ ca.subject := by
  have hnames : Sample.pluralIssuance.toOption.any (fun (ca, leaf) =>
      ca.subject = ⟨"ca", ["a", "b"]⟩ ∧ leaf.issuer = ⟨"ca", ["a, b"]⟩) = true := by
    decide +kernel
  obtain ⟨⟨ca, leaf⟩, hissuance, hnames⟩ := (Option.any_eq_true _ _).mp hnames
  obtain ⟨hsubject, hissuer⟩ := of_decide_eq_true hnames
  obtain ⟨ca, hca, hissuance⟩ := bind_eq_ok_iff.mp (toOption_eq_some_iff.mp hissuance)
  obtain ⟨leaf, hleaf, hpair⟩ := bind_eq_ok_iff.mp hissuance
  cases hpair
  refine ⟨ca, leaf, hca, hleaf, hsubject, hissuer, ?_⟩
  rw [hsubject, hissuer]
  decide

end CertRotation
