import CertRotation.Proofs.Pem.Append
import CertRotation.Proofs.PrivateKey.Pem

namespace CertRotation

open Asn1

namespace Modular

theorem euclid_fst (a b : Nat) (x y : Int) : (euclid a b x y).1 = a.gcd b := by
  fun_induction euclid a b x y with
  | case1 a x y => rw [Nat.gcd_zero_right]
  | case2 a b x y hb ih => rw [ih, Nat.gcd_comm, ← Nat.gcd_rec, Nat.gcd_comm]

theorem exists_inverse?_iff {a modulus : Nat} :
    (∃ inverse, inverse? a modulus = some inverse) ↔ a.Coprime modulus := by
  have hdivisor : (euclid (a % modulus) modulus 1 0).1 = a.gcd modulus := by
    rw [euclid_fst, ← Nat.gcd_rec, Nat.gcd_comm]
  rw [Nat.coprime_iff_gcd_eq_one, ← hdivisor, inverse?]
  simp

end Modular

namespace Pkcs8

def algorithmReader : Reader (Octets × Option (UInt8 × Octets)) :=
  Strict.sequence do
    let algorithm ← Strict.oid
    if (← get).isEmpty then return (algorithm, none)
    else return (algorithm, some (← Strict.element))

variable {algorithmDer algorithm key : Octets} {parameters : Option (UInt8 × Octets)}

theorem decode?_sequence (h : Reads algorithmReader algorithmDer (algorithm, parameters))
    (hsize : [natural 0, algorithmDer, octetString key].flatten.length < Strict.lengthLimit) :
    decode? (Asn1.sequence [natural 0, algorithmDer, octetString key]) =
      some ⟨algorithm, parameters, key⟩ := by
  have hversion : Reads Strict.natural (natural 0) 0 := Strict.reads_natural (by decide)
  have hmem : encode 0x04 key ∈ [natural 0, algorithmDer, octetString key] := by simp [octetString]
  have hkey : Reads Strict.octetString (octetString key) key :=
    Strict.reads_octetString (length_lt_of_mem hsize hmem)
  apply Strict.whole_eq
  apply Strict.reads_sequence hsize
  have halgorithm := h
  unfold algorithmReader Reads at halgorithm
  rw [Strict.whole]
  simp only [List.flatten_cons, List.flatten_nil, bind_apply, hversion _, halgorithm _, hkey _,
    Option.bind_some]
  rfl

theorem decode?_of_le
    (h : Strict.lengthLimit ≤ [natural 0, algorithmDer, octetString key].flatten.length) :
    decode? (Asn1.sequence [natural 0, algorithmDer, octetString key]) = none := by
  have hnone := @Strict.tagged_encode_of_le 0x30 _ h []
  rw [List.append_nil] at hnone
  rw [decode?, Strict.whole, Strict.sequence, bind_apply, Asn1.sequence, hnone]
  rfl

theorem reads_p256Algorithm : Reads algorithmReader P256.algorithmDer
    (Oid.ecPublicKey.contents, some (0x06, Oid.prime256v1.contents)) :=
  Strict.reads_sequence (by decide) (by decide)

theorem reads_rsaAlgorithm : Reads algorithmReader Rsa.algorithmDer
    (Oid.rsaEncryption.contents, some (0x05, [])) :=
  Strict.reads_sequence (by decide) (by decide)

end Pkcs8

theorem P256.SecretKey.length_sec1_le (key : P256.SecretKey) : key.sec1.length ≤ 128 := by
  have hpoint : key.publicOctets.length ≤ 65 := Curve.length_encodePoint_le _
  have hoctets : key.octets.length = 32 := Octets.length_ofNat _ _
  have hwidth : Octets.width 1 = 1 := by decide
  have hversion := @Strict.length_natural_le 1 (by omega)
  have hscalar := @Strict.length_encode_le key.octets 0x04 (by omega)
  have hbits := @Strict.length_encode_le (0 :: key.publicOctets) 0x03 (by
    rw [List.length_cons]
    omega)
  rw [List.length_cons] at hbits
  have hfield := @Strict.length_encode_le (bitString key.publicOctets) (UInt8.ofNat (0xa0 + 1)) (by
    rw [bitString]
    omega)
  have hflatten : [natural 1, octetString key.octets,
      explicit 1 (bitString key.publicOctets)].flatten.length ≤ 124 := by
    simp only [List.flatten_cons, List.flatten_nil, List.length_append, List.length_nil,
      octetString, explicit, bitString] at *
    omega
  have hwhole := @Strict.length_encode_le _ 0x30 (Nat.lt_of_le_of_lt hflatten (by decide))
  rw [sec1, Asn1.sequence]
  omega

namespace PrivateKey

/-- The elements of a PKCS#8 document of a key: version, algorithm and the key's own form. -/
def pkcs8Elements? : PrivateKey → Option (List Octets)
  | ecdsaP256 key => some [natural 0, P256.algorithmDer, octetString key.sec1]
  | rsa key => key.pkcs1?.map fun document => [natural 0, Rsa.algorithmDer, octetString document]

theorem pkcs8?_eq (key : PrivateKey) : key.pkcs8? = key.pkcs8Elements?.map Asn1.sequence := by
  cases key with
  | ecdsaP256 key => rfl
  | rsa key =>
      rw [pkcs8?, pkcs8Elements?]
      cases key.pkcs1? with
      | none => rfl
      | some document => rfl

/-- The labels of blocks that hold keys. -/
def keyLabels : List String := [sec1Label, pkcs1Label, pkcs8Label]

theorem isWritable_of_mem_keyLabels {label : String} (h : label ∈ keyLabels) (contents : Octets) :
    (⟨label, contents⟩ : Pem.Block).IsWritable := by
  have hall : ∀ label ∈ keyLabels, label ≠ "" ∧ 45 ∉ Utf8.encode label := by decide
  exact hall label h

theorem ofBlock?_of_notMem {block : Pem.Block} (h : block.label ∉ keyLabels) :
    ofBlock? block = none := by
  simp only [keyLabels, List.mem_cons, List.not_mem_nil, or_false, not_or] at h
  simp only [ofBlock?, h, if_false]

variable {key : PrivateKey} {elements : List Octets}

theorem ofPkcs8?_sequence (h : key.pkcs8Elements? = some elements)
    (hsize : elements.flatten.length < Strict.lengthLimit) :
    ofPkcs8? (Asn1.sequence elements) = some key ∧
      ∃ block, key.encodePem = .ok (Pem.render block) ∧ block.IsWritable ∧
        ofBlock? block = some (.ok key) := by
  cases key with
  | ecdsaP256 key =>
      cases h
      constructor
      · rw [ofPkcs8?, Pkcs8.decode?_sequence Pkcs8.reads_p256Algorithm hsize]
        simp [P256.SecretKey.ofSec1?_sec1]
      · exact ⟨_, rfl, isWritable_of_mem_keyLabels (by decide) _, ofBlock?_sec1 key⟩
  | rsa key =>
      obtain ⟨document, hdocument, rfl⟩ := Option.map_eq_some_iff.mp h
      have hread : Rsa.SecretKey.ofPkcs1? document = some key := by
        have hmem : encode 0x04 document ∈ [natural 0, Rsa.algorithmDer, octetString document] := by
          simp [octetString]
        have hinner := length_lt_of_mem hsize hmem
        obtain ⟨qInv, -, rfl⟩ := Rsa.SecretKey.pkcs1?_eq_some_iff.mp hdocument
        exact Rsa.SecretKey.ofPkcs1?_numbers (Nat.lt_trans (length_lt_encode 0x30 _) hinner)
      have hother : Oid.rsaEncryption.contents ≠ Oid.ecPublicKey.contents := by decide
      constructor
      · rw [ofPkcs8?, Pkcs8.decode?_sequence Pkcs8.reads_rsaAlgorithm hsize]
        simp [hother, hread]
      · refine ⟨⟨pkcs1Label, document⟩, ?_, isWritable_of_mem_keyLabels (by decide) _,
          ofBlock?_pkcs1 hread⟩
        rw [encodePem, hdocument]

theorem ofPkcs8?_of_le (h : key.pkcs8Elements? = some elements)
    (hsize : Strict.lengthLimit ≤ elements.flatten.length) :
    ofPkcs8? (Asn1.sequence elements) = none := by
  cases key with
  | ecdsaP256 key =>
      cases h
      rw [ofPkcs8?, Pkcs8.decode?_of_le hsize]
      rfl
  | rsa key =>
      obtain ⟨document, -, rfl⟩ := Option.map_eq_some_iff.mp h
      rw [ofPkcs8?, Pkcs8.decode?_of_le hsize]
      rfl

theorem ofBlock?_pkcs8 (contents : Octets) :
    ofBlock? ⟨pkcs8Label, contents⟩ =
      some (match ofPkcs8? contents with
        | some key => .ok key
        | none => .error (.parse .pkcs8Key)) := by
  have hlabels : pkcs8Label ≠ sec1Label ∧ pkcs8Label ≠ pkcs1Label := by decide
  cases hread : ofPkcs8? contents with
  | none => simp only [ofBlock?, if_neg hlabels.1, if_neg hlabels.2, if_true, hread]
  | some key => simp only [ofBlock?, if_neg hlabels.1, if_neg hlabels.2, if_true, hread]

theorem decodePem_of_parse {text : Octets} {blocks blocks' : List Pem.Block} {block : Pem.Block}
    {result : Except Failure PrivateKey} (h : Pem.parse text = .ok (blocks ++ block :: blocks'))
    (hbefore : ∀ other ∈ blocks, other.label ∉ keyLabels) (hblock : ofBlock? block = some result) :
    decodePem text = result := by
  have hnone : blocks.findSome? ofBlock? = none :=
    List.findSome?_eq_none_iff.mpr fun other hmem => ofBlock?_of_notMem (hbefore other hmem)
  rw [decodePem, h]
  simp only [List.findSome?_append, hnone, Option.none_or, List.findSome?_cons, hblock,
    Option.getD_some]

/-- A key can be written in both of its forms and is read back from either, also between other
blocks: blocks without keys before it, and blocks of any kind after it. The PKCS#8 document may
stand in any file that holds it and nothing else. -/
def IsPortable (key : PrivateKey) : Prop :=
  ∃ text document, key.encodePem = .ok text ∧ key.pkcs8? = some document ∧
    ∀ before after blocks blocks', Pem.IsComplete before → Pem.parse before = .ok blocks →
      (∀ block ∈ blocks, block.label ∉ keyLabels) → Pem.parse after = .ok blocks' →
      decodePem (before ++ Utf8.encode text ++ after) = .ok key ∧
        ∀ held, Pem.IsComplete held → Pem.parse held = .ok [⟨pkcs8Label, document⟩] →
          decodePem (before ++ held ++ after) = .ok key

theorem isPortable_of_length_lt (h : key.pkcs8Elements? = some elements)
    (hsize : elements.flatten.length < Strict.lengthLimit) : key.IsPortable := by
  obtain ⟨hpkcs8, block, hencode, hwritable, hown⟩ := ofPkcs8?_sequence h hsize
  have hdocument : key.pkcs8? = some (Asn1.sequence elements) := by
    rw [pkcs8?_eq, h, Option.map_some]
  refine ⟨_, _, hencode, hdocument, ?_⟩
  intro before after blocks blocks' hcomplete hbefore hother hafter
  have hread {held : Octets} {block : Pem.Block} (hheld : Pem.IsComplete held)
      (hparse : Pem.parse held = .ok [block]) (hblock : ofBlock? block = some (.ok key)) :
      decodePem (before ++ held ++ after) = .ok key := by
    rw [List.append_assoc]
    have hblocks := Pem.parse_append hcomplete hbefore (Pem.parse_append hheld hparse hafter)
    exact decodePem_of_parse hblocks hother hblock
  constructor
  · exact hread (Pem.isComplete_render hwritable) (Pem.parse_render hwritable) hown
  · intro held hheld hparse
    refine hread hheld hparse ?_
    rw [ofBlock?_pkcs8, hpkcs8]

theorem length_lt_of_isPortable (hportable : key.IsPortable)
    (h : key.pkcs8Elements? = some elements) : elements.flatten.length < Strict.lengthLimit := by
  obtain ⟨text, document, -, hdocument, hread⟩ := hportable
  rw [pkcs8?_eq, h, Option.map_some, Option.some.injEq] at hdocument
  subst hdocument
  refine Nat.not_le.mp fun hsize => ?_
  have hwritable := @isWritable_of_mem_keyLabels pkcs8Label (by decide) (Asn1.sequence elements)
  obtain ⟨-, hheld⟩ := hread [] [] [] [] Pem.isComplete_nil Pem.parse_nil (by simp) Pem.parse_nil
  have hkey := hheld _ (Pem.isComplete_render hwritable) (Pem.parse_render hwritable)
  have hrefused : decodePem (Utf8.encode (Pem.render ⟨pkcs8Label, Asn1.sequence elements⟩)) =
      .error (.parse .pkcs8Key) := by
    refine @decodePem_of_parse _ [] [] _ _ (Pem.parse_render hwritable) (by simp) ?_
    rw [ofBlock?_pkcs8, ofPkcs8?_of_le h hsize]
  rw [List.nil_append, List.append_nil, hrefused] at hkey
  cases hkey

theorem encodePem_of_not_coprime {key : Rsa.SecretKey} (h : ¬key.q.Coprime key.p) :
    (rsa key).encodePem = .error (.parse .keyForm) ∧ (rsa key).pkcs8? = none := by
  have hnone : key.pkcs1? = none := by
    refine Option.eq_none_iff_forall_ne_some.mpr fun document hdocument => h ?_
    obtain ⟨qInv, hqInv, -⟩ := Rsa.SecretKey.pkcs1?_eq_some_iff.mp hdocument
    exact Modular.exists_inverse?_iff.mp ⟨qInv, hqInv⟩
  constructor
  · rw [encodePem, hnone]
  · rw [pkcs8?, hnone]
    rfl

/-- Every P-256 key is portable. An RSA key is portable exactly if its primes have no common factor
and its document is short enough for its reader; one whose primes have a common factor is refused
by both writers. -/
theorem isPortable_iff :
    (∀ key : P256.SecretKey, (ecdsaP256 key).IsPortable) ∧
    ∀ key : Rsa.SecretKey,
      ((rsa key).IsPortable ↔
        key.q.Coprime key.p ∧ ∀ document, key.pkcs1? = some document →
          [natural 0, Rsa.algorithmDer, octetString document].flatten.length <
            Strict.lengthLimit) ∧
      (¬key.q.Coprime key.p →
        (rsa key).encodePem = .error (.parse .keyForm) ∧ (rsa key).pkcs8? = none) := by
  constructor
  · intro key
    refine isPortable_of_length_lt rfl ?_
    have hsec1 := key.length_sec1_le
    have hinner := @Strict.length_encode_le key.sec1 0x04 (by omega)
    have hrest : (natural 0).length = 3 ∧ P256.algorithmDer.length = 21 := by decide
    simp only [List.flatten_cons, List.flatten_nil, List.length_append, List.length_nil,
      octetString, Strict.lengthLimit_eq]
    omega
  · intro key
    refine ⟨⟨?_, ?_⟩, encodePem_of_not_coprime⟩
    · intro hportable
      constructor
      · refine Decidable.not_not.mp fun hcommon => ?_
        obtain ⟨text, document, hencode, -⟩ := hportable
        rw [(encodePem_of_not_coprime hcommon).1] at hencode
        cases hencode
      · intro document hdocument
        refine length_lt_of_isPortable hportable ?_
        rw [pkcs8Elements?, hdocument, Option.map_some]
    · rintro ⟨hcoprime, hsize⟩
      obtain ⟨qInv, hqInv⟩ := Modular.exists_inverse?_iff.mpr hcoprime
      have hdocument := Rsa.SecretKey.pkcs1?_eq_some_iff.mpr ⟨qInv, hqInv, rfl⟩
      refine isPortable_of_length_lt ?_ (hsize _ hdocument)
      rw [pkcs8Elements?, hdocument, Option.map_some]

end PrivateKey

/-! A key that can be read but not written: its two primes are one. -/

namespace Sample

def mersennePrime : Nat := 2 ^ 521 - 1

/-- The private exponent, the inverse of the public one modulo the prime less one. -/
def mersenneExponent : Nat := (49217 * (mersennePrime - 1) + 1) / 65537

def squareKey : Rsa.SecretKey where
  n := mersennePrime * mersennePrime
  e := 65537
  d := mersenneExponent
  p := mersennePrime
  q := mersennePrime
  isKey := by decide +kernel

/-- The PKCS#1 form of the key but for its last number, which should undo `q` modulo `p`. -/
def squareDocument : Octets := Asn1.sequence ((squareKey.numbers 1).map natural)

end Sample

theorem PrivateKey.encodePem_squareKey :
    decodePem (Utf8.encode (Pem.render ⟨pkcs1Label, Sample.squareDocument⟩)) =
        .ok (.rsa Sample.squareKey) ∧
      (PrivateKey.rsa Sample.squareKey).encodePem = .error (.parse .keyForm) ∧
      (PrivateKey.rsa Sample.squareKey).pkcs8? = none := by
  constructor
  · have hread : Rsa.SecretKey.ofPkcs1? Sample.squareDocument = some Sample.squareKey :=
      Rsa.SecretKey.ofPkcs1?_numbers (by decide +kernel)
    exact decodePem_render (by decide) (by decide) (ofBlock?_pkcs1 hread)
  · exact encodePem_of_not_coprime (by decide +kernel)

end CertRotation
