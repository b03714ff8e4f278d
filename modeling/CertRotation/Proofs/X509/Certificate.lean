import CertRotation.Issuance.SigningKey
import CertRotation.Proofs.X509.Time
import CertRotation.X509.Certificate

/-!
What a reader finds in a certificate that was written from a template. The statements start from
the success of the reader, so that they hold whatever the size of the certificate.
-/

namespace CertRotation

open Asn1

namespace Asn1.Tolerant

theorem tagged_encode_eq_some {number : Nat} {tag : UInt8} (htag : tag.toNat % 32 ≠ 31)
    {contents rest found left : Octets}
    (h : tagged number (encode tag contents ++ rest) = some (found, left)) :
    found = contents ∧ left = rest := by
  simp only [tagged, bind, StateT.bind, element_encode htag] at h
  split at h
  · simp only [Option.bind_some, elementOf] at h
    split at h
    · cases h
      exact ⟨rfl, rfl⟩
    · cases h
  · cases h

theorem sequence_eq_some {α : Type} {body : Reader α} {elements : List Octets} {value : α}
    {rest left : Octets}
    (h : Tolerant.sequence body (Asn1.sequence elements ++ rest) = some (value, left)) :
    within body elements.flatten = some value ∧ left = rest := by
  simp only [Tolerant.sequence, bind, StateT.bind, Option.bind_eq_some_iff, liftM_apply,
    Option.map_eq_some_iff] at h
  obtain ⟨⟨contents, left'⟩, htagged, value', hbody, heq⟩ := h
  obtain ⟨rfl, rfl⟩ := tagged_encode_eq_some (by decide) htagged
  cases heq
  exact ⟨hbody, rfl⟩

end Asn1.Tolerant

namespace X509

theorem version_explicit (rest : Octets) :
    version (explicit 0 (natural Template.version) ++ rest) = some ((), rest) := by
  have hread := @Tolerant.element_encode (UInt8.ofNat (0xa0 + 0)) (by decide)
    (natural Template.version) rest
  rw [if_pos (by decide)] at hread
  have hword : Tolerant.leadingWord32? (natural Template.version) = some 2 := by decide
  have hversion : Tolerant.optional 0 Tolerant.leadingWord32?
      (explicit 0 (natural Template.version) ++ rest) = some (some 2, rest) := by
    rw [explicit, Tolerant.optional, hread]
    simp [Tolerant.elementOf, hword, Tolerant.tagClass, encode]
  simp only [version, bind, StateT.bind, hversion]
  rfl

theorem name_eq_some {written : DistinguishedName} {found : List Attribute} {rest left : Octets}
    (h : name (encodeName written ++ rest) = some (found, left)) : left = rest := by
  simp only [name, bind, StateT.bind, Option.bind_eq_some_iff] at h
  obtain ⟨⟨contents, left'⟩, htagged, heq⟩ := h
  obtain ⟨-, rfl⟩ := Tolerant.tagged_encode_eq_some (by decide) htagged
  cases heq
  rfl

theorem algorithm_eq_some {key : PrivateKey} {found : Algorithm} {rest left : Octets}
    (h : algorithm (key.signatureAlgorithm ++ rest) = some (found, left)) : left = rest := by
  cases key with
  | rsa key => exact (Tolerant.sequence_eq_some h).2
  | ecdsaP256 key => exact (Tolerant.sequence_eq_some h).2

theorem validity_eq_some {start stop : Instant} (hstart : start.date.year ≤ 9999)
    (hstop : stop.date.year ≤ 9999) {found : Instant × Instant} {rest left : Octets}
    (h : validity (Asn1.sequence [encodeTime start, encodeTime stop] ++ rest) =
      some (found, left)) :
    found = (start.truncate, stop.truncate) ∧ left = rest := by
  obtain ⟨hbody, hrest⟩ := Tolerant.sequence_eq_some h
  refine ⟨?_, hrest⟩
  simp only [List.flatten_cons, List.flatten_nil, Tolerant.within, bind, StateT.bind,
    Option.map_eq_some_iff, Option.bind_eq_some_iff] at hbody
  obtain ⟨⟨found', left'⟩, ⟨⟨first, left1⟩, hfirst, ⟨second, left2⟩, hsecond, heq⟩, rfl⟩ := hbody
  rw [time_encodeTime hstart] at hfirst
  split at hfirst
  · cases hfirst
    rw [time_encodeTime hstop] at hsecond
    split at hsecond
    · cases hsecond
      cases heq
      rfl
    · cases hsecond
  · cases hfirst

theorem signedPart_validity {template : Template} {key : PrivateKey} {signed left : Octets}
    {build : Algorithm → Octets → Certificate}
    (hstart : template.notBefore.date.year ≤ 9999) (hstop : template.notAfter.date.year ≤ 9999)
    {contents : Octets}
    (hcontents : contents = [explicit 0 (natural Template.version), natural template.serial,
      key.signatureAlgorithm, encodeName template.issuer,
      Asn1.sequence [encodeTime template.notBefore, encodeTime template.notAfter],
      encodeName template.subject, template.publicKeyInfo,
      explicit 3 (Asn1.sequence template.extensions)].flatten)
    (h : signedPart signed contents = some (build, left)) (algorithm : Algorithm)
    (signature : Octets) :
    (build algorithm signature).notBefore = template.notBefore.truncate ∧
      (build algorithm signature).notAfter = template.notAfter.truncate := by
  subst hcontents
  simp only [signedPart, List.flatten_cons, bind, StateT.bind, version_explicit,
    Option.bind_some, Option.bind_eq_some_iff] at h
  obtain ⟨⟨serial, left1⟩, hserial, ⟨signatureAlgorithm, left2⟩, halgorithm,
    ⟨issuer, left3⟩, hissuer, ⟨⟨first, last⟩, left4⟩, hvalidity, h⟩ := h
  obtain ⟨-, rfl⟩ := Tolerant.tagged_encode_eq_some (by decide) hserial
  obtain rfl := algorithm_eq_some halgorithm
  obtain rfl := name_eq_some hissuer
  obtain ⟨htimes, -⟩ := validity_eq_some hstart hstop hvalidity
  obtain ⟨⟨subject, left5⟩, -, ⟨publicKey, left6⟩, -, ⟨_, left7⟩, -, ⟨_, left8⟩, -,
    ⟨extensions, left9⟩, -, heq⟩ := h
  cases htimes
  cases heq
  exact ⟨rfl, rfl⟩

theorem read?_validity {template : Template} {key : PrivateKey} {cert : Certificate}
    (hstart : template.notBefore.date.year ≤ 9999) (hstop : template.notAfter.date.year ≤ 9999)
    (h : Certificate.read? (template.certificate key) = some cert) :
    cert.notBefore = template.notBefore.truncate ∧
      cert.notAfter = template.notAfter.truncate := by
  obtain ⟨⟨found, left⟩, hcertificate, hfound⟩ := Option.map_eq_some_iff.mp h
  simp only at hfound
  subst hfound
  have hwhole : X509.certificate (template.certificate key ++ []) = some (found, left) := by
    rw [List.append_nil]
    exact hcertificate
  obtain ⟨hbody, -⟩ := Tolerant.sequence_eq_some hwhole
  simp only [List.flatten_cons, Tolerant.within, bind, StateT.bind, Option.map_eq_some_iff,
    Option.bind_eq_some_iff] at hbody
  obtain ⟨⟨_, _⟩, ⟨⟨text, left0⟩, hget, ⟨contents, left1⟩, htagged, ⟨rest, left2⟩, hrest,
    ⟨build, left3⟩, hbuild, ⟨signatureAlgorithm, left4⟩, -, ⟨signature, left5⟩, -, hpure⟩,
    hresult⟩ := hbody
  cases hget
  obtain ⟨rfl, rfl⟩ := Tolerant.tagged_encode_eq_some (by decide) htagged
  cases hpure
  subst hresult
  simp only [liftM_apply, Option.map_map, Option.map_eq_some_iff, Function.comp_apply,
    Prod.mk.injEq] at hbuild
  obtain ⟨⟨build', left6⟩, hsigned, rfl, -⟩ := hbuild
  exact signedPart_validity hstart hstop rfl hsigned signatureAlgorithm signature

end X509

end CertRotation
