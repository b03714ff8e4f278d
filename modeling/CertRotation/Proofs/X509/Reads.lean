import CertRotation.Certificate.Reader
import CertRotation.Proofs.Asn1.Reads
import CertRotation.Proofs.Text.Utf8
import CertRotation.Proofs.X509.Certificate

namespace CertRotation.X509

open Asn1

/-- The attribute that a text is written as. -/
def writtenAttribute (oid : Oid) (text : String) : Attribute :=
  ⟨oid.contents, Tolerant.elementOf 0x0c (Utf8.encode text)⟩

theorem reads_nameAttribute {oid : Oid} {text : String}
    (hsize : [oid.encode, encode 0x0c (Utf8.encode text)].flatten.length < sizeLimit) :
    Reads nameAttribute (Asn1.sequence [oid.encode, encode 0x0c (Utf8.encode text)])
      (writtenAttribute oid text) := by
  have hoid : Reads Tolerant.oid oid.encode oid.contents :=
    Tolerant.reads_oid (length_lt_of_mem hsize List.mem_cons_self)
  have hvalue : Reads Tolerant.element (encode 0x0c (Utf8.encode text))
      (Tolerant.elementOf 0x0c (Utf8.encode text)) :=
    Tolerant.reads_element (by decide) (@length_lt_of_mem 0x0c _ _ _ hsize (by simp))
  exact Tolerant.reads_sequence hsize 
    (hoid.bind (hvalue.bind (.pure (writtenAttribute oid text)))).within

theorem reads_relativeName {oid : Oid} {text : String}
    (hsize : (encodeAttribute oid text).length < sizeLimit) :
    Reads relativeName (encodeAttribute oid text) [writtenAttribute oid text] := by
  intro rest
  have hset := Nat.lt_trans (length_lt_encode 0x31
    [Asn1.sequence [oid.encode, encode 0x0c (Utf8.encode text)]].flatten) hsize
  have htagged : Reads (Tolerant.tagged 17) (encodeAttribute oid text)
      [Asn1.sequence [oid.encode, encode 0x0c (Utf8.encode text)]].flatten :=
    Tolerant.reads_tagged (by decide) hset
  have hattribute := reads_nameAttribute (length_lt_of_mem hset List.mem_cons_self)
  rw [relativeName, bind_apply, htagged]
  simp only [Option.bind_some, List.flatten_singleton,
    Tolerant.leading_single hattribute rfl, pure_apply]

/-- The kinds and texts of the attributes that a name is written with. -/
def nameTexts (name : DistinguishedName) : List (Oid × String) :=
  (Oid.commonName, name.commonName) ::
    if name.organization.isEmpty then []
    else [(Oid.organizationName, ", ".intercalate name.organization)]

/-- The attributes that a name is written with. -/
def writtenName (name : DistinguishedName) : List Attribute :=
  (nameTexts name).map fun part => writtenAttribute part.1 part.2

theorem encodeName_eq (name : DistinguishedName) :
    encodeName name =
      Asn1.sequence ((nameTexts name).map fun part => encodeAttribute part.1 part.2) := by
  unfold encodeName nameTexts
  split
  · rfl
  · rfl

theorem reads_name {written : DistinguishedName}
    (hsize : (encodeName written).length < sizeLimit) :
    Reads name (encodeName written) (writtenName written) := by
  intro rest
  rw [encodeName_eq] at hsize ⊢
  have hparts := Nat.lt_trans (length_lt_encode 0x30 _) hsize
  have hread : ∀ part ∈ nameTexts written, Reads relativeName (encodeAttribute part.1 part.2)
      [writtenAttribute part.1 part.2] := by
    intro part hmem
    have hpart : encodeAttribute part.1 part.2 ∈
        (nameTexts written).map fun part => encodeAttribute part.1 part.2 :=
      List.mem_map_of_mem hmem
    exact reads_relativeName (Nat.lt_of_le_of_lt (length_le_flatten hpart) hparts)
  rw [name, bind_apply, Tolerant.reads_contents hparts]
  simp only [Option.bind_some, pure_apply, Tolerant.leading_written hread rfl]
  rw [writtenName, ← List.flatMap_def, ← List.map_eq_flatMap]

theorem reads_algorithm {oid : Oid} (hsize : oid.encode.length < sizeLimit) :
    Reads algorithm (Asn1.sequence [oid.encode]) ⟨oid.contents, none⟩ := by
  have hoid : Reads Tolerant.oid oid.encode oid.contents :=
    Tolerant.reads_oid (Nat.lt_trans (length_lt_encode 0x06 _) hsize)
  refine Tolerant.reads_sequence (by simpa using hsize) ?_
  rw [Tolerant.within, List.flatten_singleton, bind_apply, hoid.apply_self]
  rfl

theorem reads_algorithm_parameter {oid : Oid} {tag : UInt8} {contents : Octets}
    (htag : tag.toNat % 32 ≠ 31)
    (hsize : [oid.encode, encode tag contents].flatten.length < sizeLimit) :
    Reads algorithm (Asn1.sequence [oid.encode, encode tag contents])
      ⟨oid.contents, some (Tolerant.elementOf tag contents)⟩ := by
  have hoid : Reads Tolerant.oid oid.encode oid.contents :=
    Tolerant.reads_oid (length_lt_of_mem hsize List.mem_cons_self)
  have hparameter : Reads Tolerant.element (encode tag contents)
      (Tolerant.elementOf tag contents) :=
    Tolerant.reads_element htag (@length_lt_of_mem tag _ _ _ hsize (by simp))
  refine Tolerant.reads_sequence hsize ?_
  rw [Tolerant.within, List.flatten_cons, List.flatten_singleton, bind_apply, hoid,
    Option.bind_some, bind_apply]
  change Option.map _ ((Tolerant.element >>= fun e => Pure.pure
    (⟨oid.contents, some e⟩ : Algorithm)) (encode tag contents)) = _
  rw [bind_apply, hparameter.apply_self]
  rfl

/-- The algorithm of the signatures of a key, as it is read. -/
def writtenSignatureAlgorithm : PrivateKey → Algorithm
  | .rsa _ => ⟨Oid.sha256WithRsa.contents, some (Tolerant.elementOf 0x05 [])⟩
  | .ecdsaP256 _ => ⟨Oid.ecdsaWithSha256.contents, none⟩

theorem reads_signatureAlgorithm (key : PrivateKey) :
    Reads algorithm key.signatureAlgorithm (writtenSignatureAlgorithm key) := by
  cases key with
  | rsa key => exact reads_algorithm_parameter (by decide) (by decide)
  | ecdsaP256 key => exact reads_algorithm (by decide)

/-- The octets that state the public half of a key. -/
def keyOctets : PrivateKey → Octets
  | .rsa key => Asn1.sequence [natural key.n, natural key.e]
  | .ecdsaP256 key => key.publicOctets

/-- The algorithm of the public half of a key, as it is read. -/
def writtenKeyAlgorithm : PrivateKey → Algorithm
  | .rsa _ => ⟨Oid.rsaEncryption.contents, some (Tolerant.elementOf 0x05 [])⟩
  | .ecdsaP256 _ =>
    ⟨Oid.ecPublicKey.contents, some (Tolerant.elementOf 0x06 Oid.prime256v1.contents)⟩

/-- The public half of a key, as it is read. -/
def writtenKey (key : PrivateKey) : PublicKeyInfo := ⟨writtenKeyAlgorithm key, keyOctets key⟩

theorem reads_keyInfo {algorithmText key : Octets} {found : Algorithm}
    (halgorithm : Reads algorithm algorithmText found)
    (hsize : (Asn1.sequence [algorithmText, bitString key]).length < sizeLimit) :
    Reads publicKeyInfo (Asn1.sequence [algorithmText, bitString key]) ⟨found, key⟩ := by
  have hparts := Nat.lt_trans (length_lt_encode 0x30 _) hsize
  have hkey := Tolerant.reads_bitString
    (@length_lt_of_mem 0x03 (0 :: key) _ _ hparts (List.mem_cons_of_mem _ List.mem_cons_self))
  exact Tolerant.reads_sequence hparts
    (halgorithm.bind (hkey.bind (.pure (⟨found, key⟩ : PublicKeyInfo)))).within

theorem reads_publicKeyInfo {key : PrivateKey} (hsize : key.publicKeyInfo.length < sizeLimit) :
    Reads publicKeyInfo key.publicKeyInfo (writtenKey key) := by
  cases key with
  | rsa key => exact reads_keyInfo (reads_algorithm_parameter (by decide) (by decide)) hsize
  | ecdsaP256 key => exact reads_keyInfo (reads_algorithm_parameter (by decide) (by decide)) hsize

theorem reads_critical : Reads critical booleanTrue () := by
  intro rest
  have helement : Reads Tolerant.element booleanTrue (Tolerant.elementOf 0x01 [0xff]) :=
    Tolerant.reads_element (by decide) (by decide)
  rw [critical, helement]
  rfl

theorem critical_octetString {contents : Octets} (hsize : contents.length < sizeLimit)
    (rest : Octets) :
    critical (octetString contents ++ rest) = some ((), octetString contents ++ rest) := by
  have helement : Reads Tolerant.element (octetString contents)
      (Tolerant.elementOf 0x04 contents) := Tolerant.reads_element (by decide) hsize
  rw [critical, helement]
  rfl

theorem reads_extension {oid : Oid} {isCritical : Bool} {contents : Octets}
    (hsize : (encodeExtension oid isCritical contents).length < sizeLimit) :
    Reads extension (encodeExtension oid isCritical contents) ⟨oid.contents, contents⟩ := by
  have hparts := Nat.lt_trans (length_lt_encode 0x30 _) hsize
  have hoid : Reads Tolerant.oid oid.encode oid.contents :=
    Tolerant.reads_oid (length_lt_of_mem hparts List.mem_cons_self)
  have hcontents : contents.length < sizeLimit :=
    @length_lt_of_mem 0x04 _ _ _ hparts (by simp [octetString])
  have hvalue : Reads (Tolerant.primitive 4) (octetString contents) contents :=
    Tolerant.reads_primitive (by decide) (by decide) hcontents
  have hend : Reads (Pure.pure (⟨oid.contents, contents⟩ : Extension)) []
      ⟨oid.contents, contents⟩ := .pure _
  refine Tolerant.reads_sequence hparts ?_
  cases isCritical with
  | true => exact (hoid.bind (reads_critical.bind (hvalue.bind hend))).within
  | false =>
      have hrest : Reads (do critical; let contents ← Tolerant.primitive 4
                             return (⟨oid.contents, contents⟩ : Extension))
          (octetString contents ++ []) ⟨oid.contents, contents⟩ := by
        intro rest
        rw [bind_apply, List.append_assoc, critical_octetString hcontents, ← List.append_assoc]
        exact hvalue.bind hend rest
      exact (hoid.bind hrest).within

/-- An extension before it is written. -/
structure ExtensionText where
  oid : Oid
  isCritical : Bool
  contents : Octets

namespace ExtensionText

def encode (text : ExtensionText) : Octets :=
  encodeExtension text.oid text.isCritical text.contents

def extension (text : ExtensionText) : Extension := ⟨text.oid.contents, text.contents⟩

end ExtensionText

theorem extension?_written {cert : Certificate} {texts : List ExtensionText}
    {text : ExtensionText} {oid : Oid} (h : cert.extensions = texts.map ExtensionText.extension)
    (honly : texts.filter (·.oid.contents == oid.contents) = [text]) :
    cert.extension? oid = some text.contents := by
  have hfilter : (texts.map ExtensionText.extension).filter (·.oid == oid.contents) =
      [text.extension] := by
    rw [List.filter_map, ← List.map_singleton, ← honly]
    rfl
  rw [Certificate.extension?, h, hfilter]
  rfl

theorem extension?_missing {cert : Certificate} {texts : List ExtensionText} {oid : Oid}
    (h : cert.extensions = texts.map ExtensionText.extension)
    (hnone : texts.filter (·.oid.contents == oid.contents) = []) : cert.extension? oid = none := by
  have hfilter : (texts.map ExtensionText.extension).filter (·.oid == oid.contents) = [] := by
    rw [List.filter_map, List.map_eq_nil_iff, ← hnone]
    rfl
  rw [Certificate.extension?, h, hfilter]

theorem extensions_explicit {texts : List ExtensionText}
    (hsize : (explicit 3 (Asn1.sequence (texts.map ExtensionText.encode))).length < sizeLimit) :
    extensions (explicit 3 (Asn1.sequence (texts.map ExtensionText.encode))) =
      some (texts.map ExtensionText.extension, []) := by
  have hlist := Nat.lt_trans (length_lt_encode (UInt8.ofNat (0xa0 + 3)) _) hsize
  have hitems := Nat.lt_trans (length_lt_encode 0x30 _) hlist
  have hread : ∀ text ∈ texts, Reads extension text.encode text.extension := by
    intro text hmem
    have hle := length_le_flatten (List.mem_map_of_mem (f := ExtensionText.encode) hmem)
    exact reads_extension (Nat.lt_of_le_of_lt hle hitems)
  have hheader := @Tolerant.header_eq (UInt8.ofNat (0xa0 + 3)) _ (by decide) hlist
  have hcontents := (Tolerant.reads_contents hitems).apply_self
  have hevery := Tolerant.every?_written hread rfl
  have hempty : (explicit 3 (Asn1.sequence (texts.map ExtensionText.encode))).isEmpty = false := rfl
  rw [extensions, hempty]
  simp only [explicit, hheader, Bool.false_eq_true, if_false, Option.bind_eq_bind,
    Option.bind_some, Tolerant.elementOf, hcontents, hevery]
  rfl

theorem length_contents_lt {texts : List ExtensionText}
    (hsize : (explicit 3 (Asn1.sequence (texts.map ExtensionText.encode))).length < sizeLimit) :
    ∀ text ∈ texts, text.contents.length < sizeLimit := by
  intro text hmem
  have hlist := Nat.lt_trans (length_lt_encode (UInt8.ofNat (0xa0 + 3)) _) hsize
  have hitems := Nat.lt_trans (length_lt_encode 0x30 _) hlist
  have hle := length_le_flatten (List.mem_map_of_mem (f := ExtensionText.encode) hmem)
  have hparts := Nat.lt_trans (length_lt_encode 0x30 _) (Nat.lt_of_le_of_lt hle hitems)
  exact @length_lt_of_mem 0x04 _ _ _ hparts (by simp [octetString])

theorem uniqueId_encode {number : Nat} {tag : UInt8} {contents : Octets}
    (htag : tag.toNat % 32 ≠ 31) (hnumber : tag.toNat % 32 ≠ number)
    (hsize : contents.length < sizeLimit) :
    uniqueId number (encode tag contents) = some ((), encode tag contents) := by
  have helement := (Tolerant.reads_element htag hsize).apply_self
  have hempty : (encode tag contents).isEmpty = false := rfl
  simp only [uniqueId, bind_apply, Tolerant.optional, hempty, Bool.false_eq_true, if_false,
    helement, Option.bind_eq_bind, Option.bind_some, Tolerant.elementOf, if_neg hnumber]
  rfl

theorem signedPart_eq_some {template : Template} {key certified : PrivateKey}
    {texts : List ExtensionText} {signed left : Octets} {build : Algorithm → Octets → Certificate}
    {elements : List Octets}
    (helements : elements = [explicit 0 (natural Template.version), natural template.serial,
      key.signatureAlgorithm, encodeName template.issuer,
      Asn1.sequence [encodeTime template.notBefore, encodeTime template.notAfter],
      encodeName template.subject, certified.publicKeyInfo,
      explicit 3 (Asn1.sequence (texts.map ExtensionText.encode))])
    (hsize : elements.flatten.length < sizeLimit)
    (h : signedPart signed elements.flatten = some (build, left)) (algorithm : Algorithm)
    (signature : Octets) :
    ∃ notBefore notAfter, build algorithm signature =
      { signed, serial := naturalContents template.serial, issuer := writtenName template.issuer,
        notBefore, notAfter, subject := writtenName template.subject,
        publicKey := writtenKey certified, extensions := texts.map ExtensionText.extension,
        signatureAlgorithm := algorithm, signature } := by
  have hbound : ∀ element ∈ elements, element.length < sizeLimit := fun element hmem =>
    Nat.lt_of_le_of_lt (length_le_flatten hmem) hsize
  subst helements
  simp only [signedPart, List.flatten_cons, bind, StateT.bind, version_explicit,
    Option.bind_some, Option.bind_eq_some_iff] at h
  obtain ⟨⟨serial, left1⟩, hserial, ⟨signatureAlgorithm, left2⟩, halgorithm,
    ⟨issuer, left3⟩, hissuer, ⟨⟨notBefore, notAfter⟩, left4⟩, hvalidity, ⟨subject, left5⟩,
    hsubject, ⟨publicKey, left6⟩, hkey, ⟨_, left7⟩, hissuerId, ⟨_, left8⟩, hsubjectId,
    ⟨found, left9⟩, hextensions, heq⟩ := h
  obtain ⟨rfl, rfl⟩ := Tolerant.tagged_encode_eq_some (by decide) hserial
  obtain ⟨-, rfl⟩ := (reads_signatureAlgorithm key).eq_of_eq_some halgorithm
  obtain ⟨rfl, rfl⟩ := (reads_name (hbound _ (by simp))).eq_of_eq_some hissuer
  obtain ⟨-, rfl⟩ := Tolerant.sequence_eq_some hvalidity
  obtain ⟨rfl, rfl⟩ := (reads_name (hbound _ (by simp))).eq_of_eq_some hsubject
  obtain ⟨rfl, rfl⟩ := (reads_publicKeyInfo (hbound _ (by simp))).eq_of_eq_some hkey
  have hlast := hbound (explicit 3 (Asn1.sequence (texts.map ExtensionText.encode))) (by simp)
  have hlist := Nat.lt_trans (length_lt_encode (UInt8.ofNat (0xa0 + 3)) _) hlast
  rw [List.flatten_nil, List.append_nil] at hissuerId
  obtain ⟨-, rfl⟩ := Prod.mk.inj (Option.some.inj
    ((uniqueId_encode (by decide) (by decide) hlist).symm.trans hissuerId))
  obtain ⟨-, rfl⟩ := Prod.mk.inj (Option.some.inj
    ((uniqueId_encode (by decide) (by decide) hlist).symm.trans hsubjectId))
  obtain ⟨rfl, -⟩ := Prod.mk.inj (Option.some.inj
    ((extensions_explicit hlast).symm.trans hextensions))
  cases heq
  exact ⟨notBefore, notAfter, rfl⟩

theorem length_lt_of_sequence {α : Type} {body : Reader α} {elements : List Octets}
    {found : α × Octets} {rest : Octets}
    (h : Tolerant.sequence body (Asn1.sequence elements ++ rest) = some found) :
    elements.flatten.length < sizeLimit := by
  rw [Tolerant.sequence, bind_apply, Tolerant.tagged, bind_apply, Asn1.sequence,
    Tolerant.element_encode (by decide)] at h
  by_cases hsmall : elements.flatten.length < 2 ^ 64
  · exact hsmall
  · rw [if_neg hsmall] at h
    cases h

/-- A certificate that was written and can be read says what was put into it, and is signed over
what was signed. -/
theorem read?_eq_some {template : Template} {key certified : PrivateKey}
    {texts : List ExtensionText} {cert : Certificate}
    (hkey : template.publicKeyInfo = certified.publicKeyInfo)
    (htexts : template.extensions = texts.map ExtensionText.encode)
    (h : Certificate.read? (template.certificate key) = some cert) :
    (∀ text ∈ texts, text.contents.length < sizeLimit) ∧ ∃ notBefore notAfter, cert =
      { signed := template.signedPart key.signatureAlgorithm
        serial := naturalContents template.serial
        issuer := writtenName template.issuer
        notBefore, notAfter
        subject := writtenName template.subject
        publicKey := writtenKey certified
        extensions := texts.map ExtensionText.extension
        signatureAlgorithm := writtenSignatureAlgorithm key
        signature := key.sign (template.signedPart key.signatureAlgorithm) } := by
  obtain ⟨⟨found, left⟩, hcertificate, rfl⟩ := Option.map_eq_some_iff.mp h
  rw [← List.append_nil (template.certificate key)] at hcertificate
  have hsize := length_lt_of_sequence hcertificate
  obtain ⟨hbody, -⟩ := Tolerant.sequence_eq_some hcertificate
  have hsigned : [explicit 0 (natural Template.version), natural template.serial,
      key.signatureAlgorithm, encodeName template.issuer,
      Asn1.sequence [encodeTime template.notBefore, encodeTime template.notAfter],
      encodeName template.subject, template.publicKeyInfo,
      explicit 3 (Asn1.sequence template.extensions)].flatten.length < sizeLimit :=
    @length_lt_of_mem 0x30 _ _ _ hsize List.mem_cons_self
  have hsignature := Tolerant.reads_bitString (@length_lt_of_mem 0x03
    (0 :: key.sign (template.signedPart key.signatureAlgorithm)) _ _ hsize (by simp [bitString]))
  simp only [List.flatten_cons, Tolerant.within, bind, StateT.bind, Option.map_eq_some_iff,
    Option.bind_eq_some_iff] at hbody
  obtain ⟨⟨_, _⟩, ⟨⟨text, left0⟩, hget, ⟨contents, left1⟩, htagged, ⟨rest, left2⟩, hrest,
    ⟨build, left3⟩, hbuild, ⟨signatureAlgorithm, left4⟩, halgorithm, ⟨signature, left5⟩, hread,
    hpure⟩, hresult⟩ := hbody
  cases hget
  cases hrest
  obtain ⟨rfl, rfl⟩ := Tolerant.tagged_encode_eq_some (by decide) htagged
  simp only [liftM_apply, Option.map_map, Option.map_eq_some_iff, Function.comp_apply,
    Prod.mk.injEq] at hbuild
  obtain ⟨⟨build', left6⟩, hpart, rfl, rfl⟩ := hbuild
  obtain ⟨rfl, rfl⟩ := (reads_signatureAlgorithm key).eq_of_eq_some halgorithm
  obtain ⟨rfl, rfl⟩ := hsignature.eq_of_eq_some hread
  cases hpure
  subst hresult
  rw [hkey, htexts] at hsigned hpart
  obtain ⟨notBefore, notAfter, heq⟩ := signedPart_eq_some rfl hsigned hpart
    (writtenSignatureAlgorithm key) (key.sign (template.signedPart key.signatureAlgorithm))
  have htake : ∀ {first last : Octets},
      (first ++ last).take ((first ++ last).length - last.length) = first := by
    intro first last
    simp
  refine ⟨?_, notBefore, notAfter, heq.trans ?_⟩
  · exact length_contents_lt (Nat.lt_of_le_of_lt (length_le_flatten (by simp)) hsigned)
  · rw [htake]

end CertRotation.X509
