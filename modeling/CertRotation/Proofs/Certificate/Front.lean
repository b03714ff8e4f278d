import CertRotation.Proofs.Asn1.Front
import CertRotation.Proofs.Trust.Readers

/-!
The certificate in front of an octet string. A record keeps all of the octets it was read from, but
they are looked at as far as the first element goes: octets behind it change nothing but the
encoding that is kept, and are not refused in files either.
-/

namespace CertRotation

open Asn1

theorem X509.Certificate.exists_isElement_of_read? {der : Octets} {parsed : X509.Certificate}
    (h : read? der = some parsed) :
    ∃ element behind, der = element ++ behind ∧ IsElement element ∧
      (∀ behind', read? (element ++ behind') = some parsed) ∧
      ∀ short, IsCutFrom short element → read? short = none := by
  obtain ⟨⟨found, behind⟩, hfound, rfl⟩ := Option.map_eq_some_iff.mp h
  obtain ⟨element, hder, helement, hreads⟩ := Tolerant.exists_isElement_of_sequence hfound
  refine ⟨element, behind, hder, helement, fun behind' => ?_, fun short hshort => ?_⟩
  · exact congrArg (Option.map _) (hreads behind')
  · have hnone := Tolerant.takesFront_sequence.eq_none hreads hshort
    exact congrArg (Option.map _) hnone

namespace Certificate

variable {cert issuer : Certificate} {der der' element : Octets} {key : PrivateKey}

def withDer (cert : Certificate) (der : Octets) : Certificate := { cert with der }

theorem ofDer_of_unreadable (h : X509.Certificate.read? der = none) :
    ofDer der = .error (.parse .certificate) := by
  rw [ofDer, h]
  rfl

theorem ofDer_withDer (h : ofDer der = .ok cert)
    (hread : X509.Certificate.read? der' = X509.Certificate.read? der) :
    ofDer der' = .ok (cert.withDer der') := by
  obtain ⟨parsed, subject, issuer, hparsed, hsubject, hissuer, rfl⟩ := exists_read_of_ofDer h
  rw [hparsed] at hread
  simp only [ofDer, hread, hsubject, hissuer]
  rfl

section

variable (hread : X509.Certificate.read? der = X509.Certificate.read? cert.der)

include hread

theorem signatureFault?_withDer :
    (cert.withDer der).signatureFault? issuer = cert.signatureFault? issuer := by
  rw [signatureFault?, signatureFault?, ← hread]
  rfl

theorem signatureFault?_withDer_issuer :
    issuer.signatureFault? (cert.withDer der) = issuer.signatureFault? cert := by
  rw [signatureFault?, signatureFault?, ← hread]
  rfl

theorem checkKeyPair_withDer :
    (cert.withDer der).checkKeyPair key = cert.checkKeyPair key := by
  rw [checkKeyPair, checkKeyPair, ← hread]
  rfl

end

/-- What a certificate at the front makes of the octets behind it. -/
structure IsFront (element : Octets) (cert : Certificate) : Prop where
  isElement : IsElement element
  /-- Octets behind it are kept, and change nothing else. -/
  record : ∀ behind, ofDer (element ++ behind) = .ok (cert.withDer (element ++ behind))
  /-- A part of it is refused. -/
  cut : ∀ short, IsCutFrom short element → ofDer short = .error (.parse .certificate)
  /-- Signatures by it and on it are judged as if nothing were behind it. -/
  signature : ∀ behind issuer,
    (cert.withDer (element ++ behind)).signatureFault? issuer = cert.signatureFault? issuer ∧
      issuer.signatureFault? (cert.withDer (element ++ behind)) = issuer.signatureFault? cert
  /-- So are keys. -/
  keyPair : ∀ behind key,
    (cert.withDer (element ++ behind)).checkKeyPair key = cert.checkKeyPair key
  /-- A bundle with a block of it is accepted. -/
  bundle : ∀ behind text blocks, Pem.parse text = .ok blocks →
    ⟨blockLabel, element ++ behind⟩ ∈ blocks →
      ∃ pool, TrustPool.ofPem text = .ok pool ∧ cert.withDer (element ++ behind) ∈ pool.roots
  /-- A file with a block of it is accepted, if the other certificate blocks can be read. -/
  file : ∀ behind text blocks, Pem.parse text = .ok blocks →
    ⟨blockLabel, element ++ behind⟩ ∈ blocks →
    (∀ block ∈ blocks, block.label = blockLabel → block.contents ≠ element ++ behind →
      ∃ other, IsReadAs block other) →
    ∃ certs, decodePem text = .ok certs ∧ cert.withDer (element ++ behind) ∈ certs

theorem IsReadAs.mem {block : Pem.Block} {blocks : List Pem.Block} {certs : List Certificate}
    (h : IsReadAs block cert) (hmem : block ∈ blocks) (hcerts : AreReadFrom blocks certs) :
    cert ∈ certs := by
  rw [TrustPool.areReadFrom_iff.mp hcerts]
  exact TrustPool.mem_rootsOf_iff.mpr ⟨block, hmem, h.label, h.contents⟩

theorem isFront_of_read? (h : ofDer cert.der = .ok cert) (helement : IsElement element)
    (hread : ∀ behind, X509.Certificate.read? (element ++ behind) =
      X509.Certificate.read? cert.der)
    (hcut : ∀ short, IsCutFrom short element → X509.Certificate.read? short = none) :
    IsFront element cert := by
  have hblock : ∀ behind,
      IsReadAs ⟨blockLabel, element ++ behind⟩ (cert.withDer (element ++ behind)) :=
    fun behind => ⟨rfl, ofDer_withDer h (hread behind)⟩
  exact {
    isElement := helement
    record := fun behind => (hblock behind).contents
    cut := fun short hshort => ofDer_of_unreadable (hcut short hshort)
    signature := fun behind issuer =>
      ⟨signatureFault?_withDer (hread behind), signatureFault?_withDer_issuer (hread behind)⟩
    keyPair := fun behind key => checkKeyPair_withDer (hread behind)
    bundle := by
      intro behind text blocks hparse hmem
      have hroot := TrustPool.mem_rootsOf_iff.mpr ⟨_, hmem, (hblock behind).label,
        (hblock behind).contents⟩
      obtain ⟨pool, hpool, hroots⟩ := TrustPool.exists_ofPem hparse hroot
      exact ⟨pool, hpool, hroots ▸ hroot⟩
    file := by
      intro behind text blocks hparse hmem hothers
      have hall : AllReadable blocks := by
        intro block hblockMem hlabel
        by_cases hsame : block.contents = element ++ behind
        · exact ⟨_, hlabel, hsame ▸ (hblock behind).contents⟩
        · exact hothers block hblockMem hlabel hsame
      have hcerts : AreReadFrom blocks (TrustPool.rootsOf blocks) :=
        TrustPool.areReadFrom_iff.mpr rfl
      have hfound := (hblock behind).mem hmem hcerts
      exact ⟨_, decodePem_eq_ok_iff.mpr
        ⟨blocks, hparse, List.ne_nil_of_mem hfound, hcerts, hall⟩, hfound⟩ }

/-- A record that was read is the record of the one element in front of its encoding. What is
behind the element is kept in the record, and does not count. -/
theorem isFront_of_ofDer (h : ofDer der = .ok cert) :
    ∃ element behind, der = element ++ behind ∧ IsFront element cert ∧
      (∀ other left, IsElement other → der = other ++ left → other = element) ∧
      (IsElement der ↔ behind = []) := by
  obtain ⟨hder, parsed, hparsed, -⟩ := ofDer_eq_ok h
  obtain ⟨element, behind, rfl, helement, hread, hcut⟩ :=
    X509.Certificate.exists_isElement_of_read? hparsed
  refine ⟨element, behind, rfl, ?_, ?_, helement.append_iff⟩
  · refine isFront_of_read? (ofDer_der h) helement (fun behind' => ?_) hcut
    rw [hder, hread, hread]
  · intro other left hother heq
    exact hother.unique helement heq.symm

end Certificate

/-! A plain certificate, and the same with an octet behind it. -/

namespace Sample

/-- The algorithm of ECDSA signatures, without parameters. -/
def ecdsaAlgorithm : Octets := sequence [Oid.ecdsaWithSha256.encode]

/-- A certificate without extensions, whose key and signature are of no use, with the contents of
its serial number. -/
def plainCertificate (serial : Octets) : Octets :=
  sequence [
    sequence [explicit 0 (natural X509.Template.version), encode 0x02 serial, ecdsaAlgorithm,
      X509.encodeName ⟨"x", []⟩,
      sequence [X509.encodeTime ⟨1700000000, 0⟩, X509.encodeTime ⟨1700360000, 0⟩],
      X509.encodeName ⟨"x", []⟩, sequence [sequence [null], bitString []]],
    ecdsaAlgorithm, bitString (sequence [natural 1, natural 1])]

/-- The plain certificate with the number five. -/
def fifth : Octets := plainCertificate [5]

theorem isElement_fifth : IsElement fifth := by
  have hread : (Tolerant.element fifth).map Prod.snd = some [] := by decide +kernel
  obtain ⟨⟨e, rest⟩, he, rfl⟩ := Option.map_eq_some_iff.mp hread
  exact ⟨e, he⟩

theorem exists_ofDer_fifth : ∃ cert, Certificate.ofDer fifth = .ok cert :=
  exists_ok_of_toBool (by decide +kernel)

theorem read?_fifth_append :
    X509.Certificate.read? (fifth ++ [0]) = X509.Certificate.read? fifth := by
  decide +kernel

end Sample

namespace Certificate

theorem isFront_of_ofDer_sample : ∃ cert, ofDer (Sample.fifth ++ [0]) = .ok cert ∧
    IsFront Sample.fifth cert ∧ ¬IsElement (Sample.fifth ++ [0]) ∧
    ofDer Sample.fifth = .ok (cert.withDer Sample.fifth) := by
  obtain ⟨found, hfound⟩ := Sample.exists_ofDer_fifth
  have hmore := ofDer_withDer hfound Sample.read?_fifth_append
  obtain ⟨element, behind, heq, hfront, honly, hwhole⟩ := isFront_of_ofDer hmore
  obtain rfl := honly _ _ Sample.isElement_fifth rfl
  obtain rfl := List.append_cancel_left heq
  have hrecord := hfront.record []
  rw [List.append_nil] at hrecord
  exact ⟨_, hmore, hfront, fun h => absurd (hwhole.mp h) (by decide), hrecord⟩

/-- A certificate with an octet behind it is accepted, alone and in files. It is not one element,
and its record differs from that of the certificate in the encoding alone. -/
theorem ofDer_ne_error_of_append : ∃ cert, ofDer Sample.fifth = .ok cert ∧
    ofDer (Sample.fifth ++ [0]) = .ok (cert.withDer (Sample.fifth ++ [0])) ∧
    ¬IsElement (Sample.fifth ++ [0]) ∧ (cert.withDer (Sample.fifth ++ [0])).der ≠ cert.der ∧
    decodePem (Utf8.encode (cert.withDer (Sample.fifth ++ [0])).pem) =
      .ok [cert.withDer (Sample.fifth ++ [0])] ∧
    ∃ pool,
      TrustPool.ofPem (Utf8.encode (cert.withDer (Sample.fifth ++ [0])).pem) = .ok pool := by
  obtain ⟨cert, hcert⟩ := Sample.exists_ofDer_fifth
  have hmore := ofDer_withDer hcert Sample.read?_fifth_append
  refine ⟨cert, hcert, hmore, ?_, ?_, decodePem_pem hmore, _, TrustPool.ofPem_pem hmore⟩
  · rw [Sample.isElement_fifth.append_iff]
    decide
  · rw [(ofDer_eq_ok hcert).1]
    intro hsame
    exact absurd (List.self_eq_append_right.mp hsame.symm) (by decide)

end Certificate

end CertRotation
