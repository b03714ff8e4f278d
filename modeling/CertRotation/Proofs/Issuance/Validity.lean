import CertRotation.Issuance.Leaf
import CertRotation.Proofs.Fallible
import CertRotation.Proofs.X509.Certificate

namespace CertRotation

namespace Certificate

theorem exists_read_of_ofDer {der : Octets} {cert : Certificate} (h : ofDer der = .ok cert) :
    ∃ parsed subject issuer, X509.Certificate.read? der = some parsed ∧
      nameOf? parsed.subject = some subject ∧ nameOf? parsed.issuer = some issuer ∧
      cert =
        { der
          serial := Octets.stripZeros parsed.serial
          notBefore := parsed.notBefore
          notAfter := parsed.notAfter
          subject
          issuer
          san := ((parsed.extension? Asn1.Oid.subjectAltName).bind altNames?).getD []
          isCa := (parsed.extension? Asn1.Oid.basicConstraints).any isAuthority
          keyUsages := ((parsed.extension? Asn1.Oid.keyUsage).map keyUsagesOf).getD []
          extendedKeyUsages :=
            ((parsed.extension? Asn1.Oid.extKeyUsage).map extendedKeyUsagesOf).getD [] } := by
  unfold ofDer at h
  cases hread : X509.Certificate.read? der with
  | none => simp [hread] at h
  | some parsed =>
      cases hsubject : nameOf? parsed.subject with
      | none => simp [hread, hsubject] at h
      | some subject =>
          cases hissuer : nameOf? parsed.issuer with
          | none => simp [hread, hsubject, hissuer] at h
          | some issuer =>
              simp only [hread, hsubject, hissuer] at h
              cases h
              exact ⟨parsed, subject, issuer, rfl, hsubject, hissuer, rfl⟩

theorem ofDer_eq_ok {der : Octets} {cert : Certificate} (h : ofDer der = .ok cert) :
    cert.der = der ∧ ∃ parsed, X509.Certificate.read? der = some parsed ∧
      cert.notBefore = parsed.notBefore ∧ cert.notAfter = parsed.notAfter := by
  obtain ⟨parsed, _, _, hread, -, -, rfl⟩ := exists_read_of_ofDer h
  exact ⟨rfl, parsed, hread, rfl, rfl⟩

theorem ofDer_der {der : Octets} {cert : Certificate} (h : ofDer der = .ok cert) :
    ofDer cert.der = .ok cert := by
  rw [(ofDer_eq_ok h).1, h]

end Certificate

theorem Instant.truncate_truncate (t : Instant) : t.truncate.truncate = t.truncate := rfl

namespace Issuance

theorem endOfValidity?_eq_some_iff {now stop : Instant} {duration : Duration} :
    endOfValidity? now duration = some stop ↔
      now.plus duration = stop ∧ stop.inRange = true ∧ stop.date.year ≤ lastYear := by
  rw [endOfValidity?, Option.filter_eq_some_iff, decide_eq_true_eq, Instant.add?]
  simp only [Option.ite_none_right_eq_some, Option.some.injEq]
  constructor
  · rintro ⟨⟨hrange, rfl⟩, hyear⟩
    exact ⟨rfl, hrange, hyear⟩
  · rintro ⟨rfl, hrange, hyear⟩
    exact ⟨⟨hrange, rfl⟩, hyear⟩

theorem isWritable_year {t : Instant} (h : isWritable t = true) : t.date.year ≤ 9999 := by
  simp only [isWritable, Bool.and_eq_true, decide_eq_true_eq] at h
  exact h.2

theorem checkWritable_eq_ok {start stop : Instant} (h : checkWritable start stop = .ok ()) :
    start.date.year ≤ 9999 ∧ stop.date.year ≤ 9999 := by
  unfold checkWritable at h
  split at h
  · rename_i hwritable
    rw [Bool.and_eq_true] at hwritable
    exact ⟨isWritable_year hwritable.1, isWritable_year hwritable.2⟩
  · cases h

theorem ofDer_certificate_validity {template : X509.Template} {key : PrivateKey}
    {cert : Certificate} (h : Certificate.ofDer (template.certificate key) = .ok cert)
    (hstart : template.notBefore.date.year ≤ 9999)
    (hstop : template.notAfter.date.year ≤ 9999) :
    cert.notBefore = template.notBefore.truncate ∧
      cert.notAfter = template.notAfter.truncate := by
  obtain ⟨-, parsed, hread, hbefore, hafter⟩ := Certificate.ofDer_eq_ok h
  rw [hbefore, hafter]
  exact X509.read?_validity hstart hstop hread

theorem issueAuthority_eq_ok {config : SubjectConfig} {key : PrivateKey} {duration : Duration}
    {now : Instant} {ca : Certificate} (h : issueAuthority config key duration now = .ok ca) :
    ∃ stop, endOfValidity? now duration = some stop ∧ checkWritable now stop = .ok () ∧
      Certificate.ofDer ((authorityTemplate config.subject key now stop).certificate key) =
        .ok ca := by
  simp only [issueAuthority, bind_eq_ok_iff] at h
  obtain ⟨-, -, h⟩ := h
  cases hstop : endOfValidity? now duration with
  | none => simp [hstop] at h
  | some stop =>
      simp only [hstop, bind_eq_ok_iff] at h
      obtain ⟨_, hwritable, hcert⟩ := h
      exact ⟨stop, rfl, hwritable, hcert⟩

theorem issueLeaf_eq_ok {config : SubjectConfig} {key caKey : PrivateKey} {ca : Certificate}
    {duration : Duration} {now : Instant} {serial : LeafSerial} {leaf : Certificate}
    (h : issueLeaf config key ca caKey duration now serial = .ok leaf) :
    ∃ stop, endOfValidity? now duration = some stop ∧ isWritable ca.notBefore = true ∧
      isWritable stop = true ∧
      Certificate.ofDer ((leafTemplate config key ca.subject serial ca.notBefore stop).certificate
        caKey) = .ok leaf := by
  rw [issueLeaf, bind_eq_ok_iff] at h
  obtain ⟨-, -, h⟩ := h
  cases hname : config.dnsNames.find? (!isWritableName ·) with
  | some name => simp [hname] at h
  | none =>
      cases hca : isWritable ca.notBefore with
      | false => simp [hname, hca] at h
      | true =>
          cases hstop : endOfValidity? now duration with
          | none => simp [hname, hca, hstop] at h
          | some stop =>
              cases hwritable : isWritable stop with
              | false => simp [hname, hca, hstop, hwritable] at h
              | true =>
                  simp only [hname, hca, hstop, hwritable, Bool.not_true, Bool.false_eq_true,
                    if_false, bind_eq_ok_iff] at h
                  obtain ⟨_, -, _, -, _, -, hcert⟩ := h
                  exact ⟨stop, rfl, rfl, hwritable, hcert⟩

theorem issueAuthority_validity {config : SubjectConfig} {key : PrivateKey} {duration : Duration}
    {now : Instant} {ca : Certificate}
    (h : issueAuthority config key duration now = .ok ca) :
    ca.notBefore = now.truncate ∧
      ∃ stop, endOfValidity? now duration = some stop ∧ ca.notAfter = stop.truncate := by
  obtain ⟨stop, hstop, hwritable, hcert⟩ := issueAuthority_eq_ok h
  obtain ⟨hyear, hyear'⟩ := checkWritable_eq_ok hwritable
  obtain ⟨hbefore, hafter⟩ := ofDer_certificate_validity hcert hyear hyear'
  exact ⟨hbefore, stop, hstop, hafter⟩

theorem issueLeaf_validity {config : SubjectConfig} {key caKey : PrivateKey} {ca : Certificate}
    {duration : Duration} {now : Instant} {serial : LeafSerial} {leaf : Certificate}
    (h : issueLeaf config key ca caKey duration now serial = .ok leaf) :
    leaf.notBefore = ca.notBefore.truncate ∧
      ∃ stop, endOfValidity? now duration = some stop ∧ leaf.notAfter = stop.truncate := by
  obtain ⟨stop, hstop, hca, hwritable, hcert⟩ := issueLeaf_eq_ok h
  obtain ⟨hbefore, hafter⟩ :=
    ofDer_certificate_validity hcert (isWritable_year hca) (isWritable_year hwritable)
  exact ⟨hbefore, stop, hstop, hafter⟩

theorem ofDer_issueAuthority {config : SubjectConfig} {key : PrivateKey} {duration : Duration}
    {now : Instant} {ca : Certificate} (h : issueAuthority config key duration now = .ok ca) :
    Certificate.ofDer ca.der = .ok ca := by
  obtain ⟨_, -, -, hcert⟩ := issueAuthority_eq_ok h
  exact Certificate.ofDer_der hcert

theorem ofDer_issueLeaf {config : SubjectConfig} {key caKey : PrivateKey} {ca : Certificate}
    {duration : Duration} {now : Instant} {serial : LeafSerial} {leaf : Certificate}
    (h : issueLeaf config key ca caKey duration now serial = .ok leaf) :
    Certificate.ofDer leaf.der = .ok leaf := by
  obtain ⟨_, -, -, -, hcert⟩ := issueLeaf_eq_ok h
  exact Certificate.ofDer_der hcert

/-- An authority and the leaf that it signs at its issuance are valid together. -/
theorem validity_eq_of_issue {caConfig config : SubjectConfig} {caKey key : PrivateKey}
    {duration : Duration} {now : Instant} {serial : LeafSerial} {ca leaf : Certificate}
    (hca : issueAuthority caConfig caKey duration now = .ok ca)
    (hleaf : issueLeaf config key ca caKey duration now serial = .ok leaf) :
    leaf.notBefore = ca.notBefore ∧ leaf.notAfter = ca.notAfter := by
  obtain ⟨hbefore, stop, hstop, hafter⟩ := issueAuthority_validity hca
  obtain ⟨hbefore', stop', hstop', hafter'⟩ := issueLeaf_validity hleaf
  obtain rfl : stop = stop' := Option.some.inj (hstop.symm.trans hstop')
  constructor
  · rw [hbefore', hbefore, Instant.truncate_truncate]
  · rw [hafter', hafter]

end Issuance

end CertRotation
