import CertRotation.Proofs.Issuance.Acceptance
import CertRotation.Proofs.Time.Nanoseconds

namespace CertRotation

open Asn1

theorem Instant.truncate_plus {t : Instant} (ht : t.IsRegular) (d : Duration) :
    (t.plus d).truncate = ⟨(t.nanoseconds + d.nanoseconds) / Duration.second, 0⟩ := by
  obtain ⟨hregular, hsum⟩ := Instant.plus_of_isRegular ht d
  have hfloor : (t.plus d).seconds = (t.nanoseconds + d.nanoseconds) / Duration.second := by
    unfold IsRegular at hregular
    rw [← hsum, nanoseconds, Duration.second]
    omega
  rw [truncate, hfloor]

namespace Certificate

theorem keyUsagesOf_authority : keyUsagesOf
    (Issuance.keyUsageText [.digitalSignature, .keyEncipherment, .keyCertSign]).contents =
      [.digitalSignature, .keyEncipherment, .keyCertSign] := by decide

end Certificate

namespace Issuance

variable {config : SubjectConfig} {key : PrivateKey} {duration : Duration} {now : Instant}
  {ca : Certificate}

theorem issueAuthority_names (h : issueAuthority config key duration now = .ok ca) :
    ca.subject = config.subject.joined ∧ ca.issuer = config.subject.joined ∧ ca.serial = [] := by
  obtain ⟨stop, -, -, hcert⟩ := issueAuthority_eq_ok h
  obtain ⟨parsed, subject, issuer, hread, hsubject, hissuer, rfl⟩ :=
    Certificate.exists_read_of_ofDer hcert
  obtain ⟨-, notBefore, notAfter, hparsed⟩ :=
    @X509.read?_eq_some _ _ key (authorityTexts key) _ rfl rfl hread
  rw [hparsed, Certificate.nameOf?_written] at hsubject hissuer
  refine ⟨(Option.some.inj hsubject).symm, (Option.some.inj hissuer).symm, ?_⟩
  simp only [hparsed]
  rw [Octets.stripZeros_eq_minimal, value_naturalContents]
  rfl

theorem issueAuthority_extensions (h : issueAuthority config key duration now = .ok ca) :
    ca.san = [] ∧ ca.isCa = true ∧
      ca.keyUsages = [.digitalSignature, .keyEncipherment, .keyCertSign] ∧
      ca.extendedKeyUsages = [] := by
  obtain ⟨stop, -, -, hcert⟩ := issueAuthority_eq_ok h
  obtain ⟨parsed, subject, issuer, hread, -, -, rfl⟩ := Certificate.exists_read_of_ofDer hcert
  obtain ⟨-, notBefore, notAfter, hparsed⟩ :=
    @X509.read?_eq_some _ _ key (authorityTexts key) _ rfl rfl hread
  have htexts := congrArg X509.Certificate.extensions hparsed
  have hnames : parsed.extension? Oid.subjectAltName = none := X509.extension?_missing htexts rfl
  have husages := @X509.extension?_written _ (authorityTexts key) _ Oid.keyUsage htexts rfl
  have hpurposes : parsed.extension? Oid.extKeyUsage = none := X509.extension?_missing htexts rfl
  obtain ⟨hisCa, -⟩ := issueAuthority_contents h
  refine ⟨?_, hisCa, ?_, ?_⟩
  · simp only [hnames]
    rfl
  · simp only [husages]
    exact Certificate.keyUsagesOf_authority
  · simp only [hpurposes]
    rfl

theorem isIssuedBy_self_of_issueAuthority (hsound : key.SignsSoundly)
    (h : issueAuthority config key duration now = .ok ca) : ca.IsIssuedBy ca := by
  obtain ⟨hisCa, -⟩ := issueAuthority_contents h
  obtain ⟨hsubject, hissuer, -⟩ := issueAuthority_names h
  have hcheck := checkSigningKey_of_issueAuthority h
  refine ⟨hisCa, hsubject.trans hissuer.symm, ?_⟩
  obtain ⟨stop, -, -, hcert⟩ := issueAuthority_eq_ok h
  obtain ⟨parsed, -, -, hread, -, -, rfl⟩ := Certificate.exists_read_of_ofDer hcert
  obtain ⟨-, notBefore, notAfter, hparsed⟩ :=
    @X509.read?_eq_some _ _ key (authorityTexts key) _ rfl rfl hread
  have hfault : parsed.signatureFault? (X509.writtenKey key) = none := by
    rw [hparsed]
    exact X509.signatureFault?_written hsound hcheck rfl rfl
  have hkey : parsed.publicKey = X509.writtenKey key := by rw [hparsed]
  simp only [Certificate.signatureFault?, hread, hkey, hfault, Option.map_none]

theorem publicKey?_of_issueAuthority (h : issueAuthority config key duration now = .ok ca) :
    ca.publicKey? = some key.publicKey := by
  obtain ⟨-, -, parsed, hread, hkey⟩ := issueAuthority_contents h
  exact Certificate.publicKey?_of_read? hread hkey (checkSigningKey_of_issueAuthority h)

/-- The record of a new authority. Serial number, usages and purposes are fixed, the times are those
asked for, cut to whole seconds, and the names are those asked for, with the organizations joined.
The same record is read from the encoding and from the file, and the signature holds under the key
if the signatures of the key do. -/
theorem record_of_issueAuthority (h : issueAuthority config key duration now = .ok ca) :
    (∃ stop, now.add? duration = some stop ∧
      ca =
        { der := ca.der
          serial := []
          notBefore := ⟨now.seconds, 0⟩
          notAfter := ⟨stop.seconds, 0⟩
          subject := ⟨config.commonName,
            if config.organization = [] then [] else [", ".intercalate config.organization]⟩
          issuer := ca.subject
          san := []
          isCa := true
          keyUsages := [.digitalSignature, .keyEncipherment, .keyCertSign]
          extendedKeyUsages := [] }) ∧
      (now.IsRegular →
        ca.notAfter.seconds = (now.nanoseconds + duration.nanoseconds) / Duration.second) ∧
      ca.serialWord? = some 0 ∧
      Certificate.ofDer ca.der = .ok ca ∧
      Certificate.decodePem (Utf8.encode ca.pem) = .ok [ca] ∧
      ca.publicKey? = some key.publicKey ∧
      (key.SignsSoundly → ca.IsIssuedBy ca) ∧
      ca.checkKeyPair key = .ok () := by
  obtain ⟨hbefore, stop, hstop, hafter⟩ := issueAuthority_validity h
  obtain ⟨hsum, -⟩ := Option.filter_eq_some_iff.mp hstop
  obtain ⟨hplus, -⟩ := endOfValidity?_eq_some_iff.mp hstop
  obtain ⟨hsubject, hissuer, hserial⟩ := issueAuthority_names h
  obtain ⟨hsan, hisCa, husages, hpurposes⟩ := issueAuthority_extensions h
  have hder := ofDer_issueAuthority h
  have hcertified := publicKey?_of_issueAuthority h
  refine ⟨⟨stop, hsum, ?_⟩, ?_, ?_, hder, Certificate.decodePem_pem hder, hcertified, ?_, ?_⟩
  · have hname : (⟨config.commonName, if config.organization = [] then []
        else [", ".intercalate config.organization]⟩ : DistinguishedName) = ca.subject := by
      rw [hsubject, DistinguishedName.joined]
      simp only [SubjectConfig.subject, List.isEmpty_iff]
    have hself : ca.issuer = ca.subject := hissuer.trans hsubject.symm
    rw [hname]
    cases ca
    cases hserial
    cases hbefore
    cases hafter
    cases hself
    cases hsan
    cases hisCa
    cases husages
    cases hpurposes
    rfl
  · intro hregular
    rw [hafter, ← hplus, Instant.truncate_plus hregular]
  · rw [Certificate.serialWord?, hserial]
    rfl
  · intro hsound
    exact isIssuedBy_self_of_issueAuthority hsound h
  · rw [Certificate.checkKeyPair_of_readable hcertified, if_pos rfl]

theorem record_of_issueAuthority_sample :
    (PrivateKey.rsa Sample.signingKey).SignsSoundly ∧ Sample.issuedAt.IsRegular ∧ ∃ ca,
      issueAuthority (Sample.identity.caConfig ["ops"]) (.rsa Sample.signingKey) (.ofSeconds 1)
        Sample.issuedAt = .ok ca ∧
      ca.subject.organization = ["ops"] ∧ ca.notBefore = ⟨5, 0⟩ ∧ ca.notAfter.seconds = 6 ∧
      Certificate.ofDer ca.der = .ok ca ∧ ca.IsIssuedBy ca := by
  obtain ⟨ca, -, h, -⟩ := Sample.exists_issue
  have hregular : Sample.issuedAt.IsRegular := by
    rw [Instant.IsRegular]
    decide
  obtain ⟨⟨stop, -, hca⟩, hseconds, -, hder, -, -, hissued, -⟩ := record_of_issueAuthority h
  refine ⟨Sample.signsSoundly_signingKey, hregular, ca, h, ?_, ?_, ?_, hder,
    hissued Sample.signsSoundly_signingKey⟩
  · rw [hca]
    rfl
  · rw [hca]
    rfl
  · rw [hseconds hregular]
    decide

end Issuance

end CertRotation
