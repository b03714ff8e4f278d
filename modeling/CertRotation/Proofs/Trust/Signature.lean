import CertRotation.Proofs.Crypto.Curve
import CertRotation.Proofs.Crypto.Rsa
import CertRotation.Proofs.PrivateKey.Pem
import CertRotation.Proofs.X509.Reads
import CertRotation.Trust.Signature

namespace CertRotation

open Asn1

/-- The signatures of a key hold under its public half, which on P-256 is a point of the curve. -/
def PrivateKey.SignsSoundly : PrivateKey → Prop
  | .rsa key => ∀ message,
      Rsa.verify .sha256 key.n key.e message (Rsa.sign .sha256 key message) = true
  | .ecdsaP256 key => ∃ point, key.publicPoint = some point ∧ Curve.p256.isOnCurve point = true ∧
      ∀ message, Curve.p256.verify point (Digest.sha256 message) (P256.sign key message) = true

/-- An RSA key that may sign certificates signs soundly if its primes are prime and differ. -/
theorem PrivateKey.signsSoundly_of_prime {key : Rsa.SecretKey} (hsigning : key.isSigningKey = true)
    (hp : key.p.Prime) (hq : key.q.Prime) (hne : key.p ≠ key.q) : (rsa key).SignsSoundly := by
  simp only [Rsa.SecretKey.isSigningKey, Bool.and_eq_true, decide_eq_true_eq,
    Rsa.signingBits] at hsigning
  obtain ⟨⟨⟨⟨⟨⟨⟨hwidth, -⟩, -⟩, -⟩, -⟩, -⟩, -⟩, -⟩ := hsigning
  have hwidth' : 2048 ≤ Octets.width key.n * 8 := of_decide_eq_true hwidth
  exact Rsa.verify_sign hp hq hne (by omega)

namespace Rsa

theorem isUsableRsaKey_of_isSigningKey {key : SecretKey} (h : key.isSigningKey = true) :
    X509.isUsableRsaKey .sha256 key.n key.e = true := by
  obtain ⟨-, hodd, hodd', -, hmax, -⟩ := key.isKey
  simp only [SecretKey.isSigningKey, Bool.and_eq_true, decide_eq_true_eq, signingBits,
    minSigningExponent] at h
  obtain ⟨⟨⟨⟨⟨⟨⟨hmin, hbits⟩, hexponent⟩, -⟩, -⟩, -⟩, -⟩, -⟩ := h
  have hbits' : Rsa.bits key.n ≤ 4096 := of_decide_eq_true hbits
  have hexponent' : 65537 ≤ key.e := of_decide_eq_true hexponent
  simp only [X509.isUsableRsaKey, X509.minRsaBits, X509.maxRsaBits, Bool.and_eq_true,
    decide_eq_true_eq, beq_iff_eq]
  exact ⟨⟨⟨⟨⟨hodd, hmin⟩, decide_eq_true (by omega)⟩, hodd'⟩, by omega⟩, hmax⟩

theorem rsaPublicKey?_written {key : SecretKey} (h : key.isSigningKey = true) :
    X509.rsaPublicKey? (Asn1.sequence [natural key.n, natural key.e]) = some (key.n, key.e) := by
  obtain ⟨hwidth, -⟩ := SecretKey.width_of_isSigningKey h
  obtain ⟨-, -, he⟩ := SecretKey.le_of_isKey key
  have hwidth' := Octets.width_mono (Nat.le_of_lt he)
  have hn := @Strict.length_natural_le key.n (by omega)
  have he := @Strict.length_natural_le key.e (by omega)
  have hlimit := Strict.lengthLimit_eq
  have hn' := @Strict.reads_natural_of_width key.n (by omega)
  have he' := @Strict.reads_natural_of_width key.e (by omega)
  apply Strict.whole_eq
  apply Strict.reads_sequence
  · simp only [List.flatten_cons, List.flatten_nil, List.length_append, List.length_nil]
    omega
  · exact Strict.whole_eq (hn'.bind (he'.bind (.pure (key.n, key.e))))

end Rsa

namespace X509

theorem signatureFault?_eq_none {cert : Certificate} {key : PublicKeyInfo}
    {scheme : SignatureScheme} (hscheme : scheme? cert.signatureAlgorithm key = some scheme)
    (hverify : scheme.verify key.key cert.signed cert.signature = true) :
    cert.signatureFault? key = none := by
  rw [Certificate.signatureFault?, hscheme]
  exact if_pos hverify

/-- A signature made with a key that signs soundly holds under the public half of the key, as it
stands in a certificate. -/
theorem signatureFault?_written {key : PrivateKey} {cert : Certificate}
    (hsound : key.SignsSoundly) (hcheck : key.checkSigningKey = .ok ())
    (halgorithm : cert.signatureAlgorithm = writtenSignatureAlgorithm key)
    (hsignature : cert.signature = key.sign cert.signed) :
    cert.signatureFault? (writtenKey key) = none := by
  cases key with
  | rsa key =>
      obtain ⟨hsigning, -⟩ := PrivateKey.isSigningKey_of_check hcheck
      have hscheme : scheme? (writtenSignatureAlgorithm (.rsa key)) (writtenKey (.rsa key)) =
          some (.rsa .sha256) := rfl
      apply signatureFault?_eq_none (halgorithm ▸ hscheme)
      simp only [SignatureScheme.verify, verifyRsa, writtenKey, keyOctets,
        Rsa.rsaPublicKey?_written hsigning, Rsa.isUsableRsaKey_of_isSigningKey hsigning,
        Bool.true_and, hsignature]
      exact hsound cert.signed
  | ecdsaP256 key =>
      obtain ⟨point, hpoint, hcurve, hverifies⟩ := hsound
      have hscheme : scheme? (writtenSignatureAlgorithm (.ecdsaP256 key))
          (writtenKey (.ecdsaP256 key)) = some (.ecdsa .p256 .sha256) := rfl
      have hinRange := P256.sign_isInRange (hverifies cert.signed)
      apply signatureFault?_eq_none (halgorithm ▸ hscheme)
      simp only [SignatureScheme.verify, writtenKey, keyOctets, P256.SecretKey.publicOctets,
        hpoint, Curve.decodePoint?_encodePoint hcurve, hsignature, PrivateKey.sign,
        P256.decodeSignature?_encode hinRange]
      exact hverifies cert.signed

end X509

end CertRotation
