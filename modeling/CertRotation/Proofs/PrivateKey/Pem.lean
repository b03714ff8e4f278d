import CertRotation.Issuance.SigningKey
import CertRotation.PrivateKey.Pem
import CertRotation.Proofs.Crypto.Curve
import CertRotation.Proofs.Fallible
import CertRotation.Proofs.Pem

namespace CertRotation

open Asn1
open Curve (p256)

namespace P256.SecretKey

variable (key : P256.SecretKey)

theorem ofOctets?_octets : ofOctets? key.octets (some key.publicOctets) = some key := by
  have hvalue : Octets.value key.octets = key.scalar := by
    rw [octets, Octets.value_ofNat]
    exact Nat.mod_eq_of_lt (Nat.lt_trans key.scalar_lt p256.order_lt)
  have hlength : ¬(key.octets.length < minScalarOctets ∨
      p256.scalarOctets < key.octets.length) := by
    rw [octets, Octets.length_ofNat]
    decide
  have hscalar : ofScalar? key.scalar = some key := dif_pos ⟨key.scalar_pos, key.scalar_lt⟩
  simp [ofOctets?, hlength, hvalue, hscalar]

theorem ofSec1?_sec1 : ofSec1? key.sec1 = some key := by
  have hpoint : key.publicOctets.length ≤ 65 := Curve.length_encodePoint_le _
  have hoctets : key.octets.length = 32 := Octets.length_ofNat _ _
  have hbits := @Strict.length_encode_le (0 :: key.publicOctets) 0x03 (by
    rw [List.length_cons]
    omega)
  have hwidth : Octets.width 1 = 1 := by decide
  have hnumber := @Strict.length_natural_le 1 (by omega)
  have hcopy := @Strict.length_encode_le key.octets 0x04 (by omega)
  have hfield := @Strict.length_encode_le (bitString key.publicOctets) (UInt8.ofNat (0xa0 + 1)) (by
    rw [bitString]
    rw [List.length_cons] at hbits
    omega)
  rw [List.length_cons] at hbits
  have hversion : Reads Strict.natural (natural 1) 1 := Strict.reads_natural (by decide)
  have hscalar : Reads Strict.octetString (octetString key.octets) key.octets :=
    Strict.reads_octetString (by
      rw [Strict.lengthLimit_eq]
      omega)
  have hstated : Reads (Strict.explicit? 1) (explicit 1 (bitString key.publicOctets))
      (some (bitString key.publicOctets)) := Strict.reads_explicit_one (by
    rw [Strict.lengthLimit_eq, bitString]
    omega)
  have hpublic : Strict.whole Strict.bitString (bitString key.publicOctets) =
      some key.publicOctets := Strict.whole_eq (Strict.reads_bitString (by
    rw [Strict.lengthLimit_eq]
    omega))
  apply Strict.whole_eq
  apply Strict.reads_sequence
  · simp only [List.flatten_cons, List.flatten_nil, List.length_append, List.length_nil,
      octetString, explicit, bitString, Strict.lengthLimit_eq] at *
    omega
  · rw [Strict.whole]
    simp only [List.flatten_cons, List.flatten_nil, bind_apply, hversion _, hscalar _,
      Strict.explicit?_zero_of_one, hstated _, Option.bind_some]
    have hlifted : (some <$> (liftM (some key.publicOctets) : Reader Octets)) =
        pure (some key.publicOctets) := rfl
    simp only [Option.mapM_some, hpublic, ne_eq, not_true_eq_false, if_false, hlifted, pure_bind,
      ofOctets?_octets]
    rfl

end P256.SecretKey

namespace Rsa.SecretKey

variable {key : Rsa.SecretKey}

theorem width_of_isSigningKey (h : key.isSigningKey = true) :
    Octets.width key.n ≤ 512 ∧ key.d < key.n := by
  simp only [isSigningKey, Bool.and_eq_true, decide_eq_true_eq, signingBits] at h
  obtain ⟨⟨⟨⟨⟨⟨⟨-, hbits⟩, -⟩, -⟩, -⟩, -⟩, hd⟩, -⟩ := h
  have hbits' : Rsa.bits key.n ≤ 4096 := of_decide_eq_true hbits
  refine ⟨?_, hd⟩
  unfold Rsa.bits at hbits'
  unfold Octets.width
  split
  · omega
  · rename_i hpos
    rw [if_neg hpos] at hbits'
    omega

theorem ofNumbers?_eq (key : Rsa.SecretKey) :
    ofNumbers? key.n key.e key.d key.p key.q = some key := dif_pos key.isKey

theorem le_of_isKey (key : Rsa.SecretKey) : key.p ≤ key.n ∧ key.q ≤ key.n ∧ key.e < key.n := by
  obtain ⟨he, -, -, -, -, hp, hq, hn, -⟩ := key.isKey
  refine ⟨?_, ?_, he⟩
  · rw [← hn]
    exact Nat.le_mul_of_pos_right _ (by omega)
  · rw [← hn]
    exact Nat.le_mul_of_pos_left _ (by omega)

theorem inverse?_lt {a modulus inverse : Nat} (hpos : 0 < modulus)
    (h : Modular.inverse? a modulus = some inverse) : inverse < modulus := by
  unfold Modular.inverse? at h
  simp only at h
  split at h
  · obtain rfl := Option.some.inj h
    have hlt := Int.emod_lt_of_pos (Modular.euclid (a % modulus) modulus 1 0).2
      (Int.natCast_pos.mpr hpos)
    omega
  · cases h

/-- The numbers of the PKCS#1 form in order, with the inverse of `q` modulo `p` as the last. -/
def numbers (key : Rsa.SecretKey) (qInv : Nat) : List Nat :=
  [0, key.n, key.e, key.d, key.p, key.q, key.dP, key.dQ, qInv]

theorem pkcs1?_eq_some_iff {document : Octets} :
    key.pkcs1? = some document ↔
      ∃ qInv, key.qInv? = some qInv ∧
        Asn1.sequence ((key.numbers qInv).map natural) = document := by
  rw [pkcs1?, Option.bind_eq_bind, Option.bind_eq_some_iff]
  simp only [Option.pure_def, Option.some.injEq]
  rfl

theorem ofPkcs1?_numbers {qInv : Nat}
    (h : ((key.numbers qInv).map natural).flatten.length < Strict.lengthLimit) :
    ofPkcs1? (Asn1.sequence ((key.numbers qInv).map natural)) = some key := by
  have hread : ∀ n ∈ key.numbers qInv, Reads Strict.natural (natural n) n := by
    intro n hmem
    exact Strict.reads_natural (length_lt_of_mem h (List.mem_map_of_mem hmem))
  simp only [numbers, List.forall_mem_cons, List.not_mem_nil, false_imp_iff, implies_true,
    and_true] at hread
  obtain ⟨h0, hn, he, hd, hp, hq, hdP, hdQ, hqInv⟩ := hread
  apply Strict.whole_eq
  apply Strict.reads_sequence h
  rw [Strict.whole]
  simp only [numbers, List.map_cons, List.map_nil, List.flatten_cons, List.flatten_nil, bind_apply,
    h0 _, hn _, he _, hd _, hp _, hq _, hdP _, hdQ _, hqInv _, Option.bind_some, ne_eq,
    not_true_eq_false, if_false, ofNumbers?_eq]
  rfl

theorem ofPkcs1?_written {document : Octets} (hsigning : key.isSigningKey = true)
    (h : key.pkcs1? = some document) : ofPkcs1? document = some key := by
  obtain ⟨qInv, hqInv, rfl⟩ := pkcs1?_eq_some_iff.mp h
  obtain ⟨hn, hd⟩ := width_of_isSigningKey hsigning
  obtain ⟨hp, hq, he⟩ := le_of_isKey key
  have hqInv' := inverse?_lt (Nat.lt_trans Nat.zero_lt_one key.isKey.2.2.2.2.2.1) hqInv
  have hdP : key.dP ≤ key.d := Nat.mod_le _ _
  have hdQ : key.dQ ≤ key.d := Nat.mod_le _ _
  have hlength : ∀ {m : Nat}, m ≤ key.n → (natural m).length ≤ 517 := by
    intro m hm
    have hwidth := Octets.width_mono hm
    have := @Strict.length_natural_le m (by omega)
    omega
  apply ofPkcs1?_numbers
  have h1 := @hlength 0 (by omega)
  have h2 := @hlength key.n (by omega)
  have h3 := @hlength key.e (by omega)
  have h4 := @hlength key.d (by omega)
  have h5 := @hlength key.p (by omega)
  have h6 := @hlength key.q (by omega)
  have h7 := @hlength key.dP (by omega)
  have h8 := @hlength key.dQ (by omega)
  have h9 := @hlength qInv (by omega)
  simp only [numbers, List.map_cons, List.map_nil, List.flatten_cons, List.flatten_nil,
    List.length_append, List.length_nil, Strict.lengthLimit_eq]
  omega

end Rsa.SecretKey

namespace PrivateKey

theorem decodePem_render {label : String} {contents : Octets} {key : PrivateKey}
    (h : label ≠ "") (hdash : 45 ∉ Utf8.encode label)
    (hblock : ofBlock? ⟨label, contents⟩ = some (.ok key)) :
    decodePem (Utf8.encode (Pem.render ⟨label, contents⟩)) = .ok key := by
  rw [decodePem, Pem.parse_render ⟨h, hdash⟩]
  simp [hblock]

theorem isSigningKey_of_check {key : Rsa.SecretKey} (h : (rsa key).checkSigningKey = .ok ()) :
    key.isSigningKey = true ∧ ∃ document, key.pkcs1? = some document := by
  simp only [checkSigningKey, guard_bind_eq_ok_iff] at h
  obtain ⟨hform, h⟩ := h
  constructor
  · cases hsigning : key.isSigningKey with
    | true => rfl
    | false => simp [hsigning] at h
  · cases hdocument : key.pkcs1? with
    | none => simp [pkcs8?, hdocument] at hform
    | some document => exact ⟨document, rfl⟩

theorem ofBlock?_sec1 (key : P256.SecretKey) :
    ofBlock? ⟨sec1Label, key.sec1⟩ = some (.ok (ecdsaP256 key)) := by
  rw [ofBlock?]
  simp only [if_true, P256.SecretKey.ofSec1?_sec1, Option.map_some]

theorem ofBlock?_pkcs1 {document : Octets} {key : Rsa.SecretKey}
    (h : Rsa.SecretKey.ofPkcs1? document = some key) :
    ofBlock? ⟨pkcs1Label, document⟩ = some (.ok (rsa key)) := by
  have hlabel : pkcs1Label ≠ sec1Label := by decide
  rw [ofBlock?]
  simp only [if_true, if_neg hlabel, h, Option.map_some]

theorem exists_encodePem {key : PrivateKey} (h : key.checkSigningKey = .ok ()) :
    ∃ text, key.encodePem = .ok text ∧ decodePem (Utf8.encode text) = .ok key := by
  cases key with
  | ecdsaP256 key =>
      exact ⟨_, rfl, decodePem_render (by decide) (by decide) (ofBlock?_sec1 key)⟩
  | rsa key =>
      obtain ⟨hsigning, document, hdocument⟩ := isSigningKey_of_check h
      refine ⟨Pem.render ⟨pkcs1Label, document⟩, ?_, decodePem_render (by decide) (by decide) ?_⟩
      · rw [encodePem, hdocument]
      · exact ofBlock?_pkcs1 (Rsa.SecretKey.ofPkcs1?_written hsigning hdocument)

end PrivateKey

end CertRotation
