import CertRotation.Proofs.Asn1.Element
import CertRotation.Trust.KeyPair

namespace CertRotation

open Asn1

namespace PublicKey

/-- A public key belongs to a private key: the numbers are the same, or the points. -/
def BelongsTo : PublicKey → PrivateKey → Prop
  | .rsa modulus exponent, .rsa key =>
      Octets.value modulus = key.n ∧ Octets.value exponent = key.e
  | .ellipticCurve point, .ecdsaP256 key => point = key.publicOctets
  | _, _ => False

theorem ofInfo?_rsa {info : X509.PublicKeyInfo} {modulus exponent : Octets}
    (h : ofInfo? info = some (.rsa modulus exponent)) :
    ∃ m e, modulus = Octets.minimal m ∧ exponent = Octets.minimal e := by
  unfold ofInfo? at h
  simp only at h
  split at h
  · simp only [Tolerant.within, Tolerant.sequence, bind, StateT.bind, liftM_apply,
      Option.map_eq_some_iff, Option.bind_eq_some_iff] at h
    obtain ⟨⟨found, left⟩, ⟨⟨_, _⟩, -, _, ⟨⟨_, _⟩, ⟨⟨m, _⟩, -, ⟨e, _⟩, -, hkey⟩, rfl⟩, heq⟩,
      rfl⟩ := h
    cases hkey
    cases heq
    exact ⟨_, _, Octets.stripZeros_eq_minimal m, Octets.stripZeros_eq_minimal e⟩
  · repeat' split at h
    all_goals simp at h

theorem eq_publicKey_iff {info : X509.PublicKeyInfo} {certified : PublicKey} {key : PrivateKey}
    (h : ofInfo? info = some certified) :
    certified = key.publicKey ↔ certified.BelongsTo key := by
  cases key with
  | rsa key =>
      cases certified with
      | rsa modulus exponent =>
          obtain ⟨m, e, rfl, rfl⟩ := ofInfo?_rsa h
          simp only [PrivateKey.publicKey, BelongsTo, PublicKey.rsa.injEq, Octets.value_minimal]
          constructor
          · rintro ⟨hn, he⟩
            have hvalue := congrArg Octets.value hn
            have hvalue' := congrArg Octets.value he
            rw [Octets.value_minimal, Octets.value_minimal] at hvalue hvalue'
            exact ⟨hvalue, hvalue'⟩
          · rintro ⟨rfl, rfl⟩
            exact ⟨rfl, rfl⟩
      | ellipticCurve point => simp [PrivateKey.publicKey, BelongsTo]
      | other => simp [PrivateKey.publicKey, BelongsTo]
  | ecdsaP256 key =>
      cases certified with
      | rsa modulus exponent => simp [PrivateKey.publicKey, BelongsTo]
      | ellipticCurve point => simp [PrivateKey.publicKey, BelongsTo]
      | other => simp [PrivateKey.publicKey, BelongsTo]

end PublicKey

namespace Certificate

/-- The public key of a certificate, if it can be read. -/
def publicKey? (cert : Certificate) : Option PublicKey :=
  (X509.Certificate.read? cert.der).bind (PublicKey.ofInfo? ·.publicKey)

theorem eq_publicKey_iff {cert : Certificate} {certified : PublicKey} {key : PrivateKey}
    (h : cert.publicKey? = some certified) :
    certified = key.publicKey ↔ certified.BelongsTo key := by
  obtain ⟨parsed, -, hinfo⟩ := Option.bind_eq_some_iff.mp h
  exact PublicKey.eq_publicKey_iff hinfo

theorem checkKeyPair_of_unreadable {cert : Certificate} (h : cert.publicKey? = none)
    (key : PrivateKey) : ∃ fault, cert.checkKeyPair key = .error (.parse fault) := by
  unfold checkKeyPair
  cases hread : X509.Certificate.read? cert.der with
  | none => exact ⟨_, rfl⟩
  | some parsed =>
      have hinfo : PublicKey.ofInfo? parsed.publicKey = none := by
        simpa [publicKey?, hread] using h
      simp only [hinfo]
      exact ⟨_, rfl⟩

theorem checkKeyPair_of_readable {cert : Certificate} {certified : PublicKey}
    (h : cert.publicKey? = some certified) (key : PrivateKey) :
    cert.checkKeyPair key =
      if certified = key.publicKey then .ok () else
        .error (.keyMismatch key.algorithm cert.subject) := by
  obtain ⟨parsed, hread, hinfo⟩ := Option.bind_eq_some_iff.mp h
  simp only [checkKeyPair, hread, hinfo]
  by_cases hsame : certified = key.publicKey
  · rw [if_pos hsame, if_neg (not_not_intro hsame)]
    rfl
  · rw [if_neg hsame, if_pos hsame]
    rfl

end Certificate

end CertRotation
