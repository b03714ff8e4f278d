import CertRotation.Proofs.Issuance.Record
import CertRotation.Proofs.X509.Years

namespace CertRotation

open Asn1

namespace Certificate

variable {cert : Certificate}

theorem exists_serialWord? {n : Nat} (hserial : cert.serial = Octets.minimal n) (h : n < 2 ^ 64) :
    ∃ word, cert.serialWord? = some word ∧ word.toNat = n := by
  have hlength : (Octets.minimal n).length ≤ 8 := by
    rw [Octets.length_minimal]
    exact Octets.width_le_of_lt_pow (by omega)
  have hword := @Octets.toNat_foldl_shift (Octets.minimal n) 0 (by simpa using h)
  rw [UInt64.toNat_zero, Nat.zero_mul, Nat.zero_add, Octets.value_minimal] at hword
  exact ⟨_, by rw [serialWord?, hserial, if_neg (Nat.not_lt.mpr hlength)], hword⟩

theorem keyUsagesOf_leaf : keyUsagesOf
    (Issuance.keyUsageText [.digitalSignature, .keyEncipherment]).contents =
      [.digitalSignature, .keyEncipherment] := by decide

theorem extendedKeyUsagesOf_written {usages : List ExtendedKeyUsage}
    (hsize : (Asn1.sequence (usages.map (·.oid.encode))).length < sizeLimit) :
    extendedKeyUsagesOf (Asn1.sequence (usages.map (·.oid.encode))) =
      ExtendedKeyUsage.all.filter (· ∈ usages) := by
  have hmem := @mem_extendedKeyUsagesOf_written usages hsize
  unfold extendedKeyUsagesOf at hmem ⊢
  refine List.filter_congr fun usage hall => ?_
  rw [Bool.eq_iff_iff, decide_eq_true_eq, ← hmem, List.mem_filter]
  exact ⟨fun h => ⟨hall, h⟩, And.right⟩

end Certificate

/-- A request that no leaf answers: it lacks a common name or a purpose, or has a host name with a
character outside ASCII. -/
def SubjectConfig.IsUnfit (config : SubjectConfig) : Prop :=
  config.commonName = "" ∨ config.usages = [] ∨
    ∃ name ∈ config.dnsNames, ∃ c ∈ name.toList, 128 ≤ c.toNat

/-- A record of an authority whose validity starts in the year 10000. -/
def Sample.lateAuthority : Certificate :=
  .ofWindow [] ⟨253402300800, 0⟩ ⟨253402300801, 0⟩ ⟨"ca", []⟩ ⟨"ca", []⟩

namespace Issuance

variable {config : SubjectConfig} {key caKey : PrivateKey} {ca leaf : Certificate}
  {duration : Duration} {now : Instant} {serial : LeafSerial}

theorem filter_leafTexts {oid : Oid} (h : (Oid.subjectAltName.contents == oid.contents) = false) :
    (leafTexts config).filter (·.oid.contents == oid.contents) =
      [keyUsageText [.digitalSignature, .keyEncipherment],
        ⟨Oid.extKeyUsage, false, Asn1.sequence (config.usages.map (·.oid.encode))⟩].filter
          (·.oid.contents == oid.contents) := by
  unfold leafTexts
  split
  · rfl
  · rw [List.singleton_append, List.filter_cons_of_neg (by simpa using h)]

theorem issueLeaf_names (h : issueLeaf config key ca caKey duration now serial = .ok leaf) :
    leaf.subject = config.subject.joined ∧ leaf.serial = Octets.minimal serial := by
  obtain ⟨stop, -, -, -, hcert⟩ := issueLeaf_eq_ok h
  obtain ⟨parsed, subject, issuer, hread, hsubject, -, rfl⟩ :=
    Certificate.exists_read_of_ofDer hcert
  obtain ⟨-, notBefore, notAfter, hparsed⟩ :=
    @X509.read?_eq_some _ _ key (leafTexts config) _ rfl leafTemplate_extensions hread
  rw [hparsed, Certificate.nameOf?_written] at hsubject
  refine ⟨(Option.some.inj hsubject).symm, ?_⟩
  simp only [hparsed]
  rw [Octets.stripZeros_eq_minimal, value_naturalContents]
  rfl

theorem issueLeaf_extensions (h : issueLeaf config key ca caKey duration now serial = .ok leaf) :
    leaf.isCa = false ∧ leaf.keyUsages = [.digitalSignature, .keyEncipherment] ∧
      leaf.extendedKeyUsages = ExtendedKeyUsage.all.filter (· ∈ config.usages) := by
  obtain ⟨stop, -, -, -, hcert⟩ := issueLeaf_eq_ok h
  obtain ⟨parsed, subject, issuer, hread, -, -, rfl⟩ := Certificate.exists_read_of_ofDer hcert
  obtain ⟨hsize, notBefore, notAfter, hparsed⟩ :=
    @X509.read?_eq_some _ _ key (leafTexts config) _ rfl leafTemplate_extensions hread
  have htexts := congrArg X509.Certificate.extensions hparsed
  have hauthority : parsed.extension? Oid.basicConstraints = none :=
    X509.extension?_missing htexts (by rw [filter_leafTexts (by decide)]; rfl)
  have husages := @X509.extension?_written _ (leafTexts config)
    (keyUsageText [.digitalSignature, .keyEncipherment]) Oid.keyUsage htexts
    (by rw [filter_leafTexts (by decide)]; rfl)
  have hpurposes := @X509.extension?_written _ (leafTexts config)
    ⟨Oid.extKeyUsage, false, Asn1.sequence (config.usages.map (·.oid.encode))⟩ Oid.extKeyUsage
    htexts (by rw [filter_leafTexts (by decide)]; rfl)
  have hbound := hsize
    ⟨Oid.extKeyUsage, false, Asn1.sequence (config.usages.map (·.oid.encode))⟩ (by
      simp [leafTexts])
  refine ⟨?_, ?_, ?_⟩
  · simp only [hauthority, Option.any_none]
  · simp only [husages]
    exact Certificate.keyUsagesOf_leaf
  · simp only [hpurposes, Option.map_some, Option.getD_some]
    exact Certificate.extendedKeyUsagesOf_written hbound

theorem isWritableName_eq_false_iff {name : String} :
    (!isWritableName name) = true ↔ ∃ c ∈ name.toList, 128 ≤ c.toNat := by
  simp [isWritableName]

theorem checkLeaf_cases (config : SubjectConfig) :
    (config.checkLeaf = .ok () ∧ config.commonName ≠ "" ∧ config.usages ≠ []) ∨
      ∃ fault, config.checkLeaf = .error (.invalidConfig fault) := by
  by_cases hname : config.commonName = ""
  · exact .inr ⟨.missingCommonName, by rw [SubjectConfig.checkLeaf, if_pos hname]; rfl⟩
  · by_cases husages : config.usages = []
    · exact .inr ⟨.missingUsage, by rw [SubjectConfig.checkLeaf, if_neg hname, if_pos husages]; rfl⟩
    · exact .inl ⟨by rw [SubjectConfig.checkLeaf, if_neg hname, if_neg husages]; rfl, hname,
        husages⟩

theorem issueLeaf_of_isUnfit (h : config.IsUnfit) :
    ∃ fault, issueLeaf config key ca caKey duration now serial = .error (.invalidConfig fault) := by
  rcases checkLeaf_cases config with ⟨hcheck, hname, husages⟩ | ⟨fault, hfault⟩
  · obtain ⟨host, hhost, hascii⟩ := (h.resolve_left hname).resolve_left husages
    have hfound : (config.dnsNames.find? (!isWritableName ·)).isSome = true :=
      List.find?_isSome.mpr ⟨host, hhost, isWritableName_eq_false_iff.mpr hascii⟩
    obtain ⟨found, hfound⟩ := Option.isSome_iff_exists.mp hfound
    refine ⟨.dnsName found, ?_⟩
    simp only [issueLeaf, hcheck, hfound, ok_bind]
    rfl
  · exact ⟨fault, by simp only [issueLeaf, hfault, error_bind]⟩

theorem issueLeaf_of_noEnd (h : endOfValidity? now duration = none) :
    (∃ fault, issueLeaf config key ca caKey duration now serial = .error (.invalidConfig fault)) ∨
      isWritable ca.notBefore = false ∧
        issueLeaf config key ca caKey duration now serial = .error (.signing .timeRange) := by
  rcases checkLeaf_cases config with ⟨hcheck, -⟩ | ⟨fault, hfault⟩
  · cases hfind : config.dnsNames.find? (!isWritableName ·) with
    | some found =>
        refine .inl ⟨.dnsName found, ?_⟩
        simp only [issueLeaf, hcheck, hfind, ok_bind]
        rfl
    | none =>
        cases hca : isWritable ca.notBefore with
        | true =>
            refine .inl ⟨.duration duration, ?_⟩
            simp only [issueLeaf, hcheck, hfind, hca, h, ok_bind]
            rfl
        | false =>
            refine .inr ⟨rfl, ?_⟩
            simp only [issueLeaf, hcheck, hfind, hca, ok_bind]
            rfl
  · exact .inl ⟨fault, by simp only [issueLeaf, hfault, error_bind]⟩

theorem endOfValidity?_eq_none (h : lastYear < (now.plus duration).date.year) :
    endOfValidity? now duration = none := by
  rw [Option.eq_none_iff_forall_ne_some]
  intro stop hstop
  obtain ⟨rfl, -, hyear⟩ := endOfValidity?_eq_some_iff.mp hstop
  omega

/-- The record of a leaf says what was asked for, or the request is refused. Requests without a
common name or a purpose, and host names outside ASCII, are invalid. So is a validity that ends past
year 9999, unless the start of the authority's validity cannot be written; if the authority was read
from its encoding, it can. -/
theorem record_of_issueLeaf (config : SubjectConfig) (key : PrivateKey) (ca : Certificate)
    (caKey : PrivateKey) (duration : Duration) (now : Instant) (serial : LeafSerial) :
    (config.commonName = "" ∨ config.usages = [] ∨
        (∃ name ∈ config.dnsNames, ∃ c ∈ name.toList, 128 ≤ c.toNat) →
      ∃ fault, issueLeaf config key ca caKey duration now serial =
        .error (.invalidConfig fault)) ∧
    (9999 < (now.plus duration).date.year →
      (∃ fault, issueLeaf config key ca caKey duration now serial =
        .error (.invalidConfig fault)) ∨
      isWritable ca.notBefore = false ∧
        issueLeaf config key ca caKey duration now serial = .error (.signing .timeRange)) ∧
    (∀ der, Certificate.ofDer der = .ok ca → isWritable ca.notBefore = true) ∧
    ∀ leaf, issueLeaf config key ca caKey duration now serial = .ok leaf →
      (∃ stop, now.add? duration = some stop ∧
        leaf =
          { der := leaf.der
            serial := Octets.minimal serial
            notBefore := ⟨ca.notBefore.seconds, 0⟩
            notAfter := ⟨stop.seconds, 0⟩
            subject := ⟨config.commonName,
              if config.organization = [] then [] else [", ".intercalate config.organization]⟩
            issuer := leaf.issuer
            san := config.dnsNames.map .dns ++ config.ips.map .ip
            isCa := false
            keyUsages := [.digitalSignature, .keyEncipherment]
            extendedKeyUsages :=
              [ExtendedKeyUsage.any, .serverAuth, .clientAuth, .codeSigning,
                .emailProtection].filter (· ∈ config.usages) }) ∧
      (now.IsRegular →
        leaf.notAfter.seconds = (now.nanoseconds + duration.nanoseconds) / Duration.second) ∧
      (∃ word, leaf.serialWord? = some word ∧ word.toNat = serial ∧ word.toNat < 2 ^ 63 - 1) ∧
      Certificate.ofDer leaf.der = .ok leaf := by
  refine ⟨issueLeaf_of_isUnfit, fun hyear => issueLeaf_of_noEnd (endOfValidity?_eq_none hyear),
    fun der hder => (isWritable_of_ofDer hder).1, ?_⟩
  intro leaf h
  obtain ⟨hbefore, stop, hstop, hafter⟩ := issueLeaf_validity h
  obtain ⟨hsum, -⟩ := Option.filter_eq_some_iff.mp hstop
  obtain ⟨hplus, -⟩ := endOfValidity?_eq_some_iff.mp hstop
  obtain ⟨hsubject, hserial⟩ := issueLeaf_names h
  obtain ⟨-, hsan, -⟩ := issueLeaf_contents h
  obtain ⟨hisCa, husages, hpurposes⟩ := issueLeaf_extensions h
  refine ⟨⟨stop, hsum, ?_⟩, ?_, ?_, ofDer_issueLeaf h⟩
  · rw [DistinguishedName.joined] at hsubject
    simp only [SubjectConfig.subject, List.isEmpty_iff] at hsubject
    cases leaf
    cases hserial
    cases hbefore
    cases hafter
    cases hsubject
    cases hsan
    cases hisCa
    cases husages
    cases hpurposes
    rfl
  · intro hregular
    rw [hafter, ← hplus, Instant.truncate_plus hregular]
  · have hlt : (serial : Nat) < 2 ^ 63 - 1 := serial.isLt
    obtain ⟨word, hword, hvalue⟩ := Certificate.exists_serialWord? hserial (by omega)
    exact ⟨word, hword, hvalue, hvalue ▸ hlt⟩

theorem record_of_issueLeaf_sample :
    (∃ fault, issueLeaf { Sample.identity.leafConfig [] with usages := [] }
      (.rsa Sample.signingKey) Sample.lateAuthority (.rsa Sample.signingKey) (.ofSeconds 1)
      Sample.issuedAt (.ofRandom 7) = .error (.invalidConfig fault)) ∧
    Sample.issuedAt.IsRegular ∧ ∃ ca leaf,
      Certificate.ofDer ca.der = .ok ca ∧
      (∃ fault, issueLeaf (Sample.identity.leafConfig ["ops"]) (.rsa Sample.signingKey) ca
        (.rsa Sample.signingKey) (.ofSeconds 253402300800) Sample.issuedAt (.ofRandom 7) =
        .error (.invalidConfig fault)) ∧
      issueLeaf (Sample.identity.leafConfig ["ops"]) (.rsa Sample.signingKey) ca
        (.rsa Sample.signingKey) (.ofSeconds 1) Sample.issuedAt (.ofRandom 7) = .ok leaf ∧
      leaf.notAfter.seconds = 6 ∧ leaf.extendedKeyUsages = [.serverAuth] ∧
      ∃ word, leaf.serialWord? = some word ∧ word.toNat = 7 := by
  obtain ⟨hunfit, -⟩ := record_of_issueLeaf { Sample.identity.leafConfig [] with usages := [] }
    (.rsa Sample.signingKey) Sample.lateAuthority (.rsa Sample.signingKey) (.ofSeconds 1)
    Sample.issuedAt (.ofRandom 7)
  have hregular : Sample.issuedAt.IsRegular := by
    rw [Instant.IsRegular]
    decide
  obtain ⟨ca, leaf, hca, hleaf⟩ := Sample.exists_issue
  have hder := ofDer_issueAuthority hca
  obtain ⟨-, hlong, hread, -⟩ := record_of_issueLeaf (Sample.identity.leafConfig ["ops"])
    (.rsa Sample.signingKey) ca (.rsa Sample.signingKey) (.ofSeconds 253402300800) Sample.issuedAt
    (.ofRandom 7)
  have hinvalid := hlong (by decide)
  rw [hread _ hder] at hinvalid
  obtain ⟨-, -, -, hrecord⟩ := record_of_issueLeaf (Sample.identity.leafConfig ["ops"])
    (.rsa Sample.signingKey) ca (.rsa Sample.signingKey) (.ofSeconds 1) Sample.issuedAt
    (.ofRandom 7)
  obtain ⟨⟨stop, -, hfields⟩, hseconds, ⟨word, hword, hvalue, -⟩, -⟩ := hrecord leaf hleaf
  refine ⟨hunfit (.inr (.inl rfl)), hregular, ca, leaf, hder, by simpa using hinvalid, hleaf,
    ?_, ?_, word, hword, hvalue⟩
  · rw [hseconds hregular]
    decide
  · rw [hfields]
    rfl

/-- An authority whose validity starts too late is found at fault before the duration is. -/
theorem issueLeaf_eq_signing_of_late :
    9999 < (Sample.issuedAt.plus (.ofSeconds 253402300800)).date.year ∧
    issueLeaf (Sample.identity.leafConfig []) (.rsa Sample.signingKey) Sample.lateAuthority
      (.rsa Sample.signingKey) (.ofSeconds 253402300800) Sample.issuedAt (.ofRandom 7) =
        .error (.signing .timeRange) :=
  ⟨by decide, by decide +kernel⟩

end Issuance

end CertRotation
