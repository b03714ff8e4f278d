import CertRotation.Proofs.Issuance.Contents
import CertRotation.Proofs.Rotation.Generation
import CertRotation.Proofs.Trust.Signature
import CertRotation.Proofs.Trust.Verdict

namespace CertRotation

open Asn1

namespace SubjectConfig

/-- The certificate of a request can serve: its first host is no address, or one of the addresses
asked for, and servers are among its purposes. -/
def CanServe (config : SubjectConfig) : Prop :=
  (∃ host hosts, config.dnsNames = host :: hosts ∧
    ∀ address, IpAddress.parse? host.toList = some address → address ∈ config.ips) ∧
  (.serverAuth ∈ config.usages ∨ .any ∈ config.usages)

theorem dns?_altNames (config : SubjectConfig) :
    config.altNames.filterMap SubjectAltName.dns? = config.dnsNames := by
  simp [altNames, List.filterMap_map, Function.comp_def, SubjectAltName.dns?]

theorem ip?_altNames (config : SubjectConfig) :
    config.altNames.filterMap SubjectAltName.ip? = config.ips := by
  simp [altNames, List.filterMap_map, Function.comp_def, SubjectAltName.ip?]

end SubjectConfig

theorem WebhookIdentity.canServe_leafConfig (id : WebhookIdentity) (organization : List String) :
    (id.leafConfig organization).CanServe := by
  refine ⟨⟨_, _, rfl, ?_⟩, .inl List.mem_cons_self⟩
  have hletter : 's' ∈ id.shortHostname.toList := by simp [shortHostname]
  rw [IpAddress.parse?_eq_none hletter (by decide)]
  rintro address ⟨⟩

namespace Instant

theorem truncate_le (t : Instant) : t.truncate ≤ t := .inr ⟨rfl, Nat.zero_le _⟩

/-- A second or more later, the whole second is past. Neither the fraction of the clock nor a leap
second makes up for a second. -/
theorem le_truncate_plus {t : Instant} {d : Duration} (h : Duration.ofSeconds 1 ≤ d) :
    t ≤ (t.plus d).truncate := by
  have hd : 1000000000 ≤ d.nanoseconds := h
  have hwhole : 0 < d.wholeSeconds := by
    rw [Duration.wholeSeconds, Duration.second, Int.tdiv_eq_ediv_of_nonneg (by omega)]
    omega
  have hfraction : 0 ≤ d.fraction := Int.tmod_nonneg _ (by omega)
  refine .inl ?_
  unfold plus truncate inLeapSecond
  simp only [hwhole, true_or, if_true, decide_eq_true_eq, ge_iff_le]
  split
  · simp only [Duration.second]
    omega
  · simp only [Duration.second]
    omega

end Instant

namespace Issuance

variable {caConfig config : SubjectConfig} {caKey key : PrivateKey} {ca leaf : Certificate}
  {caDuration duration : Duration} {caNow now : Instant} {serial : LeafSerial}

theorem checkSigningKey_of_issueAuthority (h : issueAuthority config key duration now = .ok ca) :
    key.checkSigningKey = .ok () := by
  rw [issueAuthority, bind_eq_ok_iff] at h
  obtain ⟨_, hcheck, -⟩ := h
  exact hcheck

theorem checks_of_issueLeaf (h : issueLeaf config key ca caKey duration now serial = .ok leaf) :
    config.usages ≠ [] ∧ key.checkSigningKey = .ok () ∧ caKey.checkSigningKey = .ok () := by
  rw [issueLeaf, bind_eq_ok_iff] at h
  obtain ⟨_, hconfig, h⟩ := h
  refine ⟨?_, ?_⟩
  · simp only [SubjectConfig.checkLeaf, guard_bind_eq_ok_iff] at hconfig
    intro hnone
    simp [hnone] at hconfig
  · cases hname : config.dnsNames.find? (!isWritableName ·) with
    | some name => simp [hname] at h
    | none =>
        simp only [hname, guard_bind_eq_ok_iff] at h
        obtain ⟨-, h⟩ := h
        cases hstop : endOfValidity? now duration with
        | none => simp [hstop] at h
        | some stop =>
            simp only [hstop, guard_bind_eq_ok_iff, bind_eq_ok_iff] at h
            obtain ⟨-, _, hcheck, _, hcaCheck, -⟩ := h
            exact ⟨hcheck, hcaCheck⟩

end Issuance

theorem PublicKey.ofInfo?_written {key : PrivateKey} (h : key.checkSigningKey = .ok ()) :
    ofInfo? (X509.writtenKey key) = some key.publicKey := by
  cases key with
  | ecdsaP256 key => rfl
  | rsa key =>
      obtain ⟨hsigning, -⟩ := PrivateKey.isSigningKey_of_check h
      obtain ⟨hn, -⟩ := Rsa.SecretKey.width_of_isSigningKey hsigning
      obtain ⟨-, -, hlt⟩ := Rsa.SecretKey.le_of_isKey key
      have he := Octets.width_mono (Nat.le_of_lt hlt)
      have hlength := @Strict.length_natural_le key.n (by omega)
      have hlength' := @Strict.length_natural_le key.e (by omega)
      have hcontents := length_lt_encode 0x02 (naturalContents key.n)
      have hcontents' := length_lt_encode 0x02 (naturalContents key.e)
      have hlimit : sizeLimit = 2 ^ 64 := rfl
      have hmodulus : Reads Tolerant.integer (natural key.n) (naturalContents key.n) :=
        Tolerant.reads_integer (by rw [natural] at hlength; omega)
      have hexponent : Reads Tolerant.integer (natural key.e) (naturalContents key.e) :=
        Tolerant.reads_integer (by rw [natural] at hlength'; omega)
      have hkey : Reads (Tolerant.sequence do
          let modulus ← Tolerant.integer
          let exponent ← Tolerant.integer
          return PublicKey.rsa (Octets.stripZeros modulus) (Octets.stripZeros exponent))
          (Asn1.sequence [natural key.n, natural key.e]) (PrivateKey.rsa key).publicKey := by
        apply Tolerant.reads_sequence
        · simp only [List.flatten_cons, List.flatten_nil, List.length_append, List.length_nil]
          omega
        · refine (hmodulus.bind (hexponent.bind ?_)).within
          rw [Octets.stripZeros_eq_minimal, Octets.stripZeros_eq_minimal, value_naturalContents,
            value_naturalContents]
          exact .pure _
      exact hkey.within

/-- A certificate is for a key, in the form in which keys are written here. -/
def Certificate.Certifies (cert : Certificate) (key : PrivateKey) : Prop :=
  ∃ parsed, X509.Certificate.read? cert.der = some parsed ∧
    parsed.publicKey = X509.writtenKey key

theorem Certificate.publicKey?_of_read? {cert : Certificate} {parsed : X509.Certificate}
    {key : PrivateKey} (hread : X509.Certificate.read? cert.der = some parsed)
    (hkey : parsed.publicKey = X509.writtenKey key) (hcheck : key.checkSigningKey = .ok ()) :
    cert.publicKey? = some key.publicKey := by
  rw [publicKey?, hread, Option.bind_some, hkey, PublicKey.ofInfo?_written hcheck]

namespace Issuance

variable {caConfig config : SubjectConfig} {caKey key : PrivateKey} {ca leaf : Certificate}
  {caDuration duration : Duration} {caNow now : Instant} {serial : LeafSerial}

theorem signatureFault?_of_issueLeaf (hsound : caKey.SignsSoundly) (hca : ca.Certifies caKey)
    (h : issueLeaf config key ca caKey duration now serial = .ok leaf) :
    leaf.signatureFault? ca = none := by
  obtain ⟨signer, hsigner, hkey⟩ := hca
  obtain ⟨-, -, -, signed, hsigned, -, halgorithm, hsignature⟩ := issueLeaf_contents h
  obtain ⟨-, -, hcheck⟩ := checks_of_issueLeaf h
  have hfault := X509.signatureFault?_written hsound hcheck halgorithm hsignature
  simp only [Certificate.signatureFault?, hsigned, hsigner, hkey, hfault, Option.map_none]

theorem isIssuedBy_of_issue (hsound : caKey.SignsSoundly)
    (hca : issueAuthority caConfig caKey caDuration caNow = .ok ca)
    (hleaf : issueLeaf config key ca caKey duration now serial = .ok leaf) :
    leaf.IsIssuedBy ca := by
  obtain ⟨hisCa, hsubject, hcertifies⟩ := issueAuthority_contents hca
  obtain ⟨hissuer, -⟩ := issueLeaf_contents hleaf
  refine ⟨hisCa, ?_, signatureFault?_of_issueLeaf hsound hcertifies hleaf⟩
  rw [hissuer, hsubject, DistinguishedName.joined_joined]

theorem publicKey?_of_issueLeaf
    (h : issueLeaf config key ca caKey duration now serial = .ok leaf) :
    leaf.publicKey? = some key.publicKey := by
  obtain ⟨-, hcheck, -⟩ := checks_of_issueLeaf h
  obtain ⟨-, -, -, parsed, hread, hkey, -⟩ := issueLeaf_contents h
  exact Certificate.publicKey?_of_read? hread hkey hcheck

theorem checkKeyPair_of_issueLeaf
    (h : issueLeaf config key ca caKey duration now serial = .ok leaf) :
    leaf.checkKeyPair key = .ok () := by
  rw [Certificate.checkKeyPair_of_readable (publicKey?_of_issueLeaf h), if_pos rfl]

theorem isRootOf_issueAuthority_iff (h : issueAuthority config key duration now = .ok ca)
    {root : Certificate} : TrustPool.IsRootOf (Utf8.encode ca.pem) root ↔ root = ca := by
  have hsingle := TrustPool.ofPem_pem (ofDer_issueAuthority h)
  rcases TrustPool.ofPem_cases (Utf8.encode ca.pem) with ⟨fault, hpool, -⟩ | ⟨pool, hpool, hroots⟩
  · rw [hsingle] at hpool
    cases hpool
  · obtain rfl := Except.ok.inj (hsingle.symm.trans hpool)
    rw [← hroots root, List.mem_singleton]

/-- A leaf is accepted under the bundle of its authority while both are valid, if it can serve. -/
theorem isAccepted_iff_of_issue (hsound : caKey.SignsSoundly)
    (hca : issueAuthority caConfig caKey caDuration caNow = .ok ca)
    (hleaf : issueLeaf config key ca caKey duration now serial = .ok leaf) {t : Instant} :
    leaf.IsAccepted (Utf8.encode ca.pem) t ↔
      ca.notBefore ≤ t ∧ t ≤ ca.notAfter ∧ t ≤ leaf.notAfter ∧ config.CanServe := by
  obtain ⟨-, hsan, husages, -⟩ := issueLeaf_contents hleaf
  obtain ⟨hneeded, -⟩ := checks_of_issueLeaf hleaf
  have hstart : leaf.notBefore = ca.notBefore := by
    obtain ⟨hbefore, -⟩ := issueAuthority_validity hca
    obtain ⟨hbefore', -⟩ := issueLeaf_validity hleaf
    rw [hbefore', hbefore, Instant.truncate_truncate]
  have hnames : leaf.dnsNames = config.dnsNames := by
    rw [Certificate.dnsNames, hsan, SubjectConfig.dns?_altNames]
  have haddresses : leaf.ipAddresses = config.ips := by
    rw [Certificate.ipAddresses, hsan, SubjectConfig.ip?_altNames]
  have hsome : leaf.extendedKeyUsages ≠ [] := by
    obtain ⟨usage, hmem⟩ := List.exists_mem_of_ne_nil _ hneeded
    exact List.ne_nil_of_mem ((husages usage).mpr hmem)
  constructor
  · rintro ⟨hhost, hstarts, hends, ⟨root, hroot, -, hfrom, hto⟩, husage⟩
    rw [isRootOf_issueAuthority_iff hca] at hroot
    subst hroot
    refine ⟨hfrom, hto, hends, ?_, ?_⟩
    · rwa [hnames, haddresses] at hhost
    · rw [husages, husages] at husage
      exact husage.resolve_left hsome
  · rintro ⟨hfrom, hto, hends, hhost, husage⟩
    exact {
      host := by rwa [hnames, haddresses]
      starts := by rwa [hstart]
      ends := hends
      issuer := ⟨ca, (isRootOf_issueAuthority_iff hca).mpr rfl,
        isIssuedBy_of_issue hsound hca hleaf, hfrom, hto⟩
      usage := .inr (by rwa [husages, husages]) }

theorem verify_iff_of_issue (hsound : caKey.SignsSoundly)
    (hca : issueAuthority caConfig caKey caDuration caNow = .ok ca)
    (hleaf : issueLeaf config key ca caKey duration now serial = .ok leaf) :
    ∃ keyPem, key.encodePem = .ok keyPem ∧ ∀ t,
      TlsMaterial.verify ⟨Utf8.encode keyPem, Utf8.encode leaf.pem⟩ (Utf8.encode ca.pem) t =
          .ok () ↔
        ca.notBefore ≤ t ∧ t ≤ ca.notAfter ∧ t ≤ leaf.notAfter ∧ config.CanServe := by
  obtain ⟨-, hcheck, -⟩ := checks_of_issueLeaf hleaf
  obtain ⟨keyPem, hencode, hdecode⟩ := PrivateKey.exists_encodePem hcheck
  refine ⟨keyPem, hencode, ?_⟩
  intro t
  have hfiles : TlsMaterial.Holds ⟨Utf8.encode keyPem, Utf8.encode leaf.pem⟩ key leaf :=
    ⟨hdecode, [], Certificate.decodePem_pem (ofDer_issueLeaf hleaf)⟩
  rw [← isAccepted_iff_of_issue hsound hca hleaf]
  constructor
  · intro hok
    refine Classical.not_not.mp fun hrefused => ?_
    obtain ⟨fault, hfault⟩ := TlsMaterial.verify_of_not_isAccepted hfiles
      ((isRootOf_issueAuthority_iff hca).mpr rfl) hrefused
    rw [hok] at hfault
    cases hfault
  · intro haccepted
    rw [TlsMaterial.verify_of_isAccepted hfiles haccepted]
    exact checkKeyPair_of_issueLeaf hleaf

theorem isValidAt_of_issueAuthority (h : issueAuthority config key duration now = .ok ca)
    (hduration : Duration.ofSeconds 1 ≤ duration) : ca.notBefore ≤ now ∧ now ≤ ca.notAfter := by
  obtain ⟨hbefore, stop, hstop, hafter⟩ := issueAuthority_validity h
  obtain ⟨rfl, -⟩ := endOfValidity?_eq_some_iff.mp hstop
  rw [hbefore, hafter]
  exact ⟨Instant.truncate_le now, Instant.le_truncate_plus hduration⟩

end Issuance

theorem Generation.exists_mint_of_issue {id : WebhookIdentity} {organization : List String}
    {duration : Duration} {now : Instant} {caKey key : PrivateKey} {serial : LeafSerial}
    {ca leaf : Certificate} (hsound : caKey.SignsSoundly)
    (hduration : Duration.ofSeconds 1 ≤ duration)
    (hca : Issuance.issueAuthority (id.caConfig organization) caKey duration now = .ok ca)
    (hleaf : Issuance.issueLeaf (id.leafConfig organization) key ca caKey duration now serial =
      .ok leaf) :
    ∃ generation, generation.ca = ca ∧
      (mint id organization duration now).run.Yields
        [⟨.newKey, .ok caKey⟩, ⟨.newKey, .ok key⟩, ⟨.newSerial, serial⟩] (.ok generation) := by
  obtain ⟨keyPem, hencode, hverify⟩ := Issuance.verify_iff_of_issue hsound hca hleaf
  obtain ⟨hfrom, hto⟩ := Issuance.isValidAt_of_issueAuthority hca hduration
  obtain ⟨-, hafter⟩ := Issuance.validity_eq_of_issue hca hleaf
  have haccepted := (hverify now).mpr
    ⟨hfrom, hto, by rwa [hafter], id.canServe_leafConfig organization⟩
  exact ⟨_, rfl, mint_yields_of_verify hca hleaf hencode haccepted⟩

/-! An authority and a leaf, both for the same key. -/

namespace Sample

theorem signsSoundly_signingKey : (PrivateKey.rsa signingKey).SignsSoundly :=
  PrivateKey.signsSoundly_of_prime (by decide +kernel) prime_greaterPrime prime_lesserPrime
    (by decide +kernel)

/-- The webhook that the leaf is for. -/
def identity : WebhookIdentity := ⟨"hook", "ops", .validating⟩

/-- The time of issuance, inside a second. -/
def issuedAt : Instant := ⟨5, 700000000⟩

/-- What is issued for the sample key. -/
def issuance : Except Failure (Certificate × Certificate) := do
  let ca ← Issuance.issueAuthority (identity.caConfig ["ops"]) (.rsa signingKey) (.ofSeconds 1)
    issuedAt
  let leaf ← Issuance.issueLeaf (identity.leafConfig ["ops"]) (.rsa signingKey) ca
    (.rsa signingKey) (.ofSeconds 1) issuedAt (.ofRandom 7)
  return (ca, leaf)

theorem exists_issuance : ∃ ca leaf, issuance = .ok (ca, leaf) := by
  obtain ⟨⟨ca, leaf⟩, hissuance⟩ := @exists_ok_of_toBool _ _ issuance (by decide +kernel)
  exact ⟨ca, leaf, hissuance⟩

theorem exists_issue : ∃ ca leaf,
    Issuance.issueAuthority (identity.caConfig ["ops"]) (.rsa signingKey) (.ofSeconds 1) issuedAt =
      .ok ca ∧
    Issuance.issueLeaf (identity.leafConfig ["ops"]) (.rsa signingKey) ca (.rsa signingKey)
      (.ofSeconds 1) issuedAt (.ofRandom 7) = .ok leaf := by
  obtain ⟨ca, leaf, hissuance⟩ := exists_issuance
  obtain ⟨ca, hca, hissuance⟩ := bind_eq_ok_iff.mp hissuance
  obtain ⟨leaf, hleaf, -⟩ := bind_eq_ok_iff.mp hissuance
  exact ⟨ca, leaf, hca, hleaf⟩

end Sample

/-- Whatever is issued is accepted, at the times at which authority and leaf are both valid and at
no others, provided that the signatures of the authority's key hold. So the check of a generation
at its minting passes for every duration of a second or more. -/
theorem verify_of_signsSoundly {caKey : PrivateKey} (hsound : caKey.SignsSoundly) :
    (∀ (caConfig config : SubjectConfig) (key : PrivateKey) (caDuration duration : Duration)
      (caNow now : Instant) (serial : LeafSerial) (ca leaf : Certificate),
      Issuance.issueAuthority caConfig caKey caDuration caNow = .ok ca →
      Issuance.issueLeaf config key ca caKey duration now serial = .ok leaf →
      ∃ keyPem, key.encodePem = .ok keyPem ∧ ∀ t,
        TlsMaterial.verify ⟨Utf8.encode keyPem, Utf8.encode leaf.pem⟩ (Utf8.encode ca.pem) t =
            .ok () ↔
          ca.notBefore ≤ t ∧ t ≤ ca.notAfter ∧ t ≤ leaf.notAfter ∧ config.CanServe) ∧
    ∀ (id : WebhookIdentity) (organization : List String) (duration : Duration) (now : Instant)
      (key : PrivateKey) (serial : LeafSerial) (ca leaf : Certificate),
      Duration.ofSeconds 1 ≤ duration →
      Issuance.issueAuthority (id.caConfig organization) caKey duration now = .ok ca →
      Issuance.issueLeaf (id.leafConfig organization) key ca caKey duration now serial =
        .ok leaf →
      ∃ generation, generation.ca = ca ∧
        (Generation.mint id organization duration now).run.Yields
          [⟨.newKey, .ok caKey⟩, ⟨.newKey, .ok key⟩, ⟨.newSerial, serial⟩] (.ok generation) := by
  constructor
  · intro caConfig config key caDuration duration caNow now serial ca leaf hca hleaf
    exact Issuance.verify_iff_of_issue hsound hca hleaf
  · intro id organization duration now key serial ca leaf hduration hca hleaf
    exact Generation.exists_mint_of_issue hsound hduration hca hleaf

theorem verify_of_signsSoundly_sample :
    (PrivateKey.rsa Sample.signingKey).SignsSoundly ∧ ∃ ca leaf keyPem generation,
      Issuance.issueAuthority (Sample.identity.caConfig ["ops"]) (.rsa Sample.signingKey)
        (.ofSeconds 1) Sample.issuedAt = .ok ca ∧
      Issuance.issueLeaf (Sample.identity.leafConfig ["ops"]) (.rsa Sample.signingKey) ca
        (.rsa Sample.signingKey) (.ofSeconds 1) Sample.issuedAt (.ofRandom 7) = .ok leaf ∧
      (∀ t, TlsMaterial.verify ⟨Utf8.encode keyPem, Utf8.encode leaf.pem⟩ (Utf8.encode ca.pem) t =
          .ok () ↔
        ca.notBefore ≤ t ∧ t ≤ ca.notAfter ∧ t ≤ leaf.notAfter ∧
          (Sample.identity.leafConfig ["ops"]).CanServe) ∧
      generation.ca = ca ∧
      (Generation.mint Sample.identity ["ops"] (.ofSeconds 1) Sample.issuedAt).run.Yields
        [⟨.newKey, .ok (.rsa Sample.signingKey)⟩, ⟨.newKey, .ok (.rsa Sample.signingKey)⟩,
          ⟨.newSerial, .ofRandom 7⟩] (.ok generation) := by
  obtain ⟨ca, leaf, hca, hleaf⟩ := Sample.exists_issue
  obtain ⟨hverify, hmint⟩ := verify_of_signsSoundly Sample.signsSoundly_signingKey
  obtain ⟨keyPem, -, hwindow⟩ := hverify _ _ _ _ _ _ _ _ ca leaf hca hleaf
  obtain ⟨generation, hgeneration, hyields⟩ := hmint _ _ _ _ _ _ ca leaf (by decide) hca hleaf
  exact ⟨Sample.signsSoundly_signingKey, ca, leaf, keyPem, generation, hca, hleaf, hwindow,
    hgeneration, hyields⟩

end CertRotation
