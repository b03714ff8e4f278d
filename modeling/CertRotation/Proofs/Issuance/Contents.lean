import CertRotation.Proofs.IpAddress
import CertRotation.Proofs.Issuance.Validity
import CertRotation.Proofs.X509.Reads

namespace CertRotation

open Asn1

/-- A name as it is read back: its organizations share one attribute. -/
def DistinguishedName.joined (name : DistinguishedName) : DistinguishedName :=
  ⟨name.commonName,
    if name.organization.isEmpty then [] else [", ".intercalate name.organization]⟩

theorem DistinguishedName.joined_joined (name : DistinguishedName) :
    name.joined.joined = name.joined := by
  unfold joined
  split
  · rfl
  · simp

namespace Certificate

theorem attributeText?_written (text : String) :
    attributeText? (Tolerant.elementOf 0x0c (Utf8.encode text)) = some text := by
  have hnumber : (Tolerant.elementOf 0x0c (Utf8.encode text)).number = 12 := rfl
  rw [attributeText?, hnumber]
  exact Utf8.decode?_encode text

theorem nameOf?_written (name : DistinguishedName) :
    nameOf? (X509.writtenName name) = some name.joined := by
  have hkinds : (Oid.organizationName.contents == Oid.commonName.contents) = false := by decide
  have hkinds' : (Oid.commonName.contents == Oid.organizationName.contents) = false := by decide
  unfold X509.writtenName X509.nameTexts DistinguishedName.joined
  split
  · simp [nameOf?, X509.writtenAttribute, hkinds', attributeText?_written]
  · simp [nameOf?, X509.writtenAttribute, hkinds, hkinds', attributeText?_written]

theorem reads_altName {name : SubjectAltName}
    (hsize : (X509.encodeAltName name).length < sizeLimit) :
    Reads altName (X509.encodeAltName name) (some name) := by
  intro rest
  cases name with
  | dns name =>
      have helement : Reads Tolerant.element (X509.encodeAltName (.dns name))
          (Tolerant.elementOf (UInt8.ofNat (0x80 + 2)) (Utf8.encode name)) :=
        Tolerant.reads_element (by decide) (Nat.lt_trans (length_lt_encode _ _) hsize)
      rw [altName, bind_apply, helement]
      simp only [Tolerant.elementOf, Option.bind_some]
      change ((fun a => some (SubjectAltName.dns a)) <$>
        (liftM (Utf8.decode? (Utf8.encode name)) : Reader String)) rest = _
      rw [Utf8.decode?_encode]
      rfl
  | ip address =>
      have helement : Reads Tolerant.element (X509.encodeAltName (.ip address))
          (Tolerant.elementOf (UInt8.ofNat (0x80 + 7)) address.octets) :=
        Tolerant.reads_element (by decide) (Nat.lt_trans (length_lt_encode _ _) hsize)
      rw [altName, bind_apply, helement]
      simp [Tolerant.elementOf, Tolerant.tagClass, IpAddress.ofOctets?_octets]

theorem altNames?_written {names : List SubjectAltName}
    (hsize : (Asn1.sequence (names.map X509.encodeAltName)).length < sizeLimit) :
    altNames? (Asn1.sequence (names.map X509.encodeAltName)) = some names := by
  have hitems := Nat.lt_trans (length_lt_encode 0x30 _) hsize
  have hread : ∀ name ∈ names, Reads altName (X509.encodeAltName name) (some name) := by
    intro name hmem
    have hle := length_le_flatten (List.mem_map_of_mem (f := X509.encodeAltName) hmem)
    exact reads_altName (Nat.lt_of_le_of_lt hle hitems)
  have hevery := Tolerant.every?_written hread rfl
  simp [altNames?, (Tolerant.reads_contents hitems).within, hevery, List.filterMap_map]

theorem oid_contents_inj {a b : ExtendedKeyUsage} (h : a.oid.contents = b.oid.contents) :
    a = b := by
  cases a <;> cases b <;> first | rfl | exact absurd h (by decide)

theorem mem_extendedKeyUsagesOf_written {usages : List ExtendedKeyUsage}
    (hsize : (Asn1.sequence (usages.map (·.oid.encode))).length < sizeLimit)
    {usage : ExtendedKeyUsage} :
    usage ∈ extendedKeyUsagesOf (Asn1.sequence (usages.map (·.oid.encode))) ↔ usage ∈ usages := by
  have hitems := Nat.lt_trans (length_lt_encode 0x30 _) hsize
  have hread : ∀ usage ∈ usages, Reads Tolerant.oid usage.oid.encode usage.oid.contents := by
    intro usage hmem
    exact Tolerant.reads_oid (length_lt_of_mem hitems (List.mem_map_of_mem hmem))
  have hevery := Tolerant.every?_written hread rfl
  have hall : usage ∈ ExtendedKeyUsage.all := by cases usage <;> decide
  simp only [extendedKeyUsagesOf, (Tolerant.reads_contents hitems).within, Option.bind_some, hevery,
    Option.getD_some, List.mem_filter, hall, true_and, List.contains_iff_mem, List.mem_map]
  constructor
  · rintro ⟨other, hmem, heq⟩
    rwa [← oid_contents_inj heq]
  · intro hmem
    exact ⟨usage, hmem, rfl⟩

theorem isAuthority_written : isAuthority (Asn1.sequence [booleanTrue]) = true := by decide

end Certificate

namespace Issuance

open X509 (ExtensionText)

/-- The key usage extension before it is written. -/
def keyUsageText (usages : List KeyUsage) : ExtensionText :=
  ⟨Oid.keyUsage, true, encode 0x03
    [7, UInt8.ofNat (usages.foldr (fun usage rest => Nat.pow 2 (7 - usage.bit) + rest) 0), 0]⟩

/-- The extensions of an authority before they are written. -/
def authorityTexts (key : PrivateKey) : List ExtensionText :=
  [keyUsageText [.digitalSignature, .keyEncipherment, .keyCertSign],
    ⟨Oid.subjectKeyIdentifier, false, octetString
      ((Digest.sha256 key.publicKeyInfo).take X509.keyIdentifierOctets)⟩,
    ⟨Oid.basicConstraints, true, Asn1.sequence [booleanTrue]⟩]

/-- The extensions of a leaf before they are written. -/
def leafTexts (config : SubjectConfig) : List ExtensionText :=
  (if config.altNames.isEmpty then []
    else [⟨Oid.subjectAltName, false, Asn1.sequence (config.altNames.map X509.encodeAltName)⟩]) ++
    [keyUsageText [.digitalSignature, .keyEncipherment],
      ⟨Oid.extKeyUsage, false, Asn1.sequence (config.usages.map (·.oid.encode))⟩]

theorem leafTemplate_extensions {config : SubjectConfig} {key : PrivateKey}
    {issuer : DistinguishedName} {serial : LeafSerial} {notBefore notAfter : Instant} :
    (leafTemplate config key issuer serial notBefore notAfter).extensions =
      (leafTexts config).map ExtensionText.encode := by
  unfold leafTemplate leafTexts
  split
  · rfl
  · rfl

theorem issueAuthority_contents {config : SubjectConfig} {key : PrivateKey} {duration : Duration}
    {now : Instant} {ca : Certificate} (h : issueAuthority config key duration now = .ok ca) :
    ca.isCa = true ∧ ca.subject = config.subject.joined ∧
      ∃ parsed, X509.Certificate.read? ca.der = some parsed ∧
        parsed.publicKey = X509.writtenKey key := by
  obtain ⟨stop, -, -, hcert⟩ := issueAuthority_eq_ok h
  obtain ⟨parsed, subject, issuer, hread, hsubject, -, rfl⟩ :=
    Certificate.exists_read_of_ofDer hcert
  obtain ⟨-, notBefore, notAfter, hparsed⟩ :=
    @X509.read?_eq_some _ _ key (authorityTexts key) _ rfl rfl hread
  refine ⟨?_, ?_, parsed, hread, congrArg X509.Certificate.publicKey hparsed⟩
  · have hextension := @X509.extension?_written _ (authorityTexts key)
      ⟨Oid.basicConstraints, true, Asn1.sequence [booleanTrue]⟩ Oid.basicConstraints
      (congrArg X509.Certificate.extensions hparsed) rfl
    simp only [hextension]
    exact Certificate.isAuthority_written
  · rw [congrArg X509.Certificate.subject hparsed, Certificate.nameOf?_written] at hsubject
    exact (Option.some.inj hsubject).symm

/-- A leaf comes back with the name of its authority, the hosts, addresses and purposes that were
asked for, the public half of its key, and a signature made with the key of the authority. -/
theorem issueLeaf_contents {config : SubjectConfig} {key caKey : PrivateKey} {ca : Certificate}
    {duration : Duration} {now : Instant} {serial : LeafSerial} {leaf : Certificate}
    (h : issueLeaf config key ca caKey duration now serial = .ok leaf) :
    leaf.issuer = ca.subject.joined ∧ leaf.san = config.altNames ∧
      (∀ usage, usage ∈ leaf.extendedKeyUsages ↔ usage ∈ config.usages) ∧
      ∃ parsed, X509.Certificate.read? leaf.der = some parsed ∧
        parsed.publicKey = X509.writtenKey key ∧
        parsed.signatureAlgorithm = X509.writtenSignatureAlgorithm caKey ∧
        parsed.signature = caKey.sign parsed.signed := by
  obtain ⟨stop, -, -, -, hcert⟩ := issueLeaf_eq_ok h
  obtain ⟨parsed, subject, issuer, hread, -, hissuer, rfl⟩ :=
    Certificate.exists_read_of_ofDer hcert
  obtain ⟨hsize, notBefore, notAfter, hparsed⟩ :=
    @X509.read?_eq_some _ _ key (leafTexts config) _ rfl leafTemplate_extensions hread
  have hextensions := congrArg X509.Certificate.extensions hparsed
  refine ⟨?_, ?_, ?_, parsed, hread, ?_, ?_, ?_⟩
  · rw [congrArg X509.Certificate.issuer hparsed, Certificate.nameOf?_written] at hissuer
    exact (Option.some.inj hissuer).symm
  · cases hnames : config.altNames with
    | nil =>
        have hextension : parsed.extension? Oid.subjectAltName = none :=
          X509.extension?_missing hextensions (by
            rw [leafTexts, hnames]
            rfl)
        simp only [hextension]
        rfl
    | cons name names =>
        have hextension := @X509.extension?_written _ (leafTexts config)
          ⟨Oid.subjectAltName, false, Asn1.sequence (config.altNames.map X509.encodeAltName)⟩
          Oid.subjectAltName hextensions (by
            rw [leafTexts, hnames]
            rfl)
        have hbound := hsize
          ⟨Oid.subjectAltName, false, Asn1.sequence (config.altNames.map X509.encodeAltName)⟩ (by
            simp [leafTexts, hnames])
        simp only [hextension, Option.bind_some, Certificate.altNames?_written hbound]
        exact hnames
  · intro usage
    have hextension := @X509.extension?_written _ (leafTexts config)
      ⟨Oid.extKeyUsage, false, Asn1.sequence (config.usages.map (·.oid.encode))⟩ Oid.extKeyUsage
      hextensions (by
        unfold leafTexts
        split
        · rfl
        · rfl)
    have hbound := hsize
      ⟨Oid.extKeyUsage, false, Asn1.sequence (config.usages.map (·.oid.encode))⟩ (by
        simp [leafTexts])
    simp only [hextension, Option.map_some, Option.getD_some]
    exact Certificate.mem_extendedKeyUsagesOf_written hbound
  · rw [hparsed]
  · rw [hparsed]
  · rw [hparsed]

end Issuance

end CertRotation
