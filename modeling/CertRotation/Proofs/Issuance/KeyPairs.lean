import CertRotation.Proofs.Crypto.Curve
import CertRotation.Proofs.Issuance.Record

namespace CertRotation

namespace PrivateKey

/-- Two keys have the same public half: the same numbers, or the same point. -/
def SamePublicHalf : PrivateKey → PrivateKey → Prop
  | rsa key, rsa other => key.n = other.n ∧ key.e = other.e
  | ecdsaP256 key, ecdsaP256 other => key.publicPoint = other.publicPoint
  | _, _ => False

theorem publicKey_eq_iff {key other : PrivateKey} :
    key.publicKey = other.publicKey ↔ key.SamePublicHalf other := by
  cases key with
  | rsa key =>
      cases other with
      | rsa other =>
          simp only [publicKey, SamePublicHalf, PublicKey.rsa.injEq,
            Octets.minimal_eq_minimal_iff]
      | ecdsaP256 other => simp [publicKey, SamePublicHalf]
  | ecdsaP256 key =>
      cases other with
      | rsa other => simp [publicKey, SamePublicHalf]
      | ecdsaP256 other =>
          simp only [publicKey, SamePublicHalf, PublicKey.ellipticCurve.injEq,
            P256.SecretKey.publicOctets_eq_iff]

end PrivateKey

/-- A certificate is issued for a key, as an authority of its own or as a leaf of whichever
authority. -/
inductive Certificate.IsIssuedFor (cert : Certificate) (key : PrivateKey) : Prop
  | authority {config : SubjectConfig} {duration : Duration} {now : Instant}
      (h : Issuance.issueAuthority config key duration now = .ok cert)
  | leaf {config : SubjectConfig} {ca : Certificate} {caKey : PrivateKey} {duration : Duration}
      {now : Instant} {serial : LeafSerial}
      (h : Issuance.issueLeaf config key ca caKey duration now serial = .ok cert)

namespace Certificate

variable {cert : Certificate} {key : PrivateKey}

theorem IsIssuedFor.publicKey?_eq (h : cert.IsIssuedFor key) :
    cert.publicKey? = some key.publicKey := by
  cases h with
  | authority h => exact Issuance.publicKey?_of_issueAuthority h
  | leaf h => exact Issuance.publicKey?_of_issueLeaf h

/-- The check of a key against an issued certificate passes for the keys with the public half of
the one it was issued for. For all others it finds a mismatch, so the certificate can always be
read. -/
theorem checkKeyPair_iff_of_isIssuedFor (h : cert.IsIssuedFor key) (other : PrivateKey) :
    (cert.checkKeyPair other = .ok () ↔ key.SamePublicHalf other) ∧
      (¬key.SamePublicHalf other →
        cert.checkKeyPair other = .error (.keyMismatch other.algorithm cert.subject)) := by
  rw [checkKeyPair_of_readable h.publicKey?_eq, ← PrivateKey.publicKey_eq_iff]
  refine ⟨?_, fun hother => if_neg hother⟩
  split
  · rename_i hsame
    exact iff_of_true rfl hsame
  · rename_i hother
    exact iff_of_false nofun hother

end Certificate

namespace Sample

/-- The sample key with its primes the other way round. -/
def turnedKey : Rsa.SecretKey where
  n := signingKey.n
  e := signingKey.e
  d := signingKey.d
  p := signingKey.q
  q := signingKey.p
  isKey := by decide +kernel

/-- Keys of both algorithms, the smallest that there are. -/
def foreignKeys : List PrivateKey :=
  [.rsa ⟨15, 3, 3, 3, 5, by decide⟩, .ecdsaP256 ⟨1, by decide, by decide⟩]

end Sample

namespace Certificate

theorem checkKeyPair_iff_of_isIssuedFor_sample : ∃ ca leaf : Certificate,
    ca.IsIssuedFor (.rsa Sample.signingKey) ∧ leaf.IsIssuedFor (.rsa Sample.signingKey) ∧
      ∀ cert ∈ [ca, leaf], cert.checkKeyPair (.rsa Sample.turnedKey) = .ok () ∧
        ∀ other ∈ Sample.foreignKeys,
          cert.checkKeyPair other = .error (.keyMismatch other.algorithm cert.subject) := by
  obtain ⟨ca, leaf, hca, hleaf⟩ := Sample.exists_issue
  have hca' : ca.IsIssuedFor (.rsa Sample.signingKey) := .authority hca
  have hleaf' : leaf.IsIssuedFor (.rsa Sample.signingKey) := .leaf hleaf
  refine ⟨ca, leaf, hca', hleaf', ?_⟩
  intro cert hcert
  have hissued : cert.IsIssuedFor (.rsa Sample.signingKey) := by
    rcases List.mem_pair.mp hcert with rfl | rfl
    · exact hca'
    · exact hleaf'
  obtain ⟨hown, -⟩ := checkKeyPair_iff_of_isIssuedFor hissued (.rsa Sample.turnedKey)
  refine ⟨hown.mpr ⟨rfl, rfl⟩, ?_⟩
  intro other hother
  obtain ⟨-, hforeign⟩ := checkKeyPair_iff_of_isIssuedFor hissued other
  apply hforeign
  rcases List.mem_pair.mp hother with rfl | rfl
  · rintro ⟨hmodulus, -⟩
    exact absurd hmodulus (by decide +kernel)
  · exact id

end Certificate

end CertRotation
