import CertRotation.Proofs.Time.Order
import CertRotation.Proofs.Trust.Chain
import CertRotation.Proofs.Trust.Hostname
import CertRotation.Proofs.Trust.KeyPair

namespace CertRotation

namespace PrivateKey

theorem ofBlock?_error {block : Pem.Block} {failure : Failure}
    (h : ofBlock? block = some (.error failure)) : ∃ fault, failure = .parse fault := by
  unfold ofBlock? at h
  simp only at h
  repeat' split at h
  all_goals
    first
    | exact ⟨_, (Except.error.inj (Option.some.inj h)).symm⟩
    | cases h

theorem decodePem_error {text : Octets} {failure : Failure}
    (h : decodePem text = .error failure) : ∃ fault, failure = .parse fault := by
  unfold decodePem at h
  split at h
  · cases h
    exact ⟨_, rfl⟩
  · rename_i blocks _
    cases hfirst : blocks.findSome? ofBlock? with
    | none =>
        rw [hfirst] at h
        cases h
        exact ⟨_, rfl⟩
    | some key =>
        rw [hfirst] at h
        obtain ⟨block, -, hblock⟩ := List.exists_of_findSome?_eq_some hfirst
        exact ofBlock?_error (hblock.trans (congrArg some h))

end PrivateKey

namespace Certificate

theorem isValidAt_iff {cert : Certificate} {now : Instant} :
    cert.isValidAt now = true ↔ cert.notBefore ≤ now ∧ now ≤ cert.notAfter := by
  simp [isValidAt, isExpiredAt, isNotYetValidAt, Instant.not_lt_iff, and_comm]

theorem allowsServerAuth_iff {cert : Certificate} :
    cert.allowsServerAuth = true ↔ cert.extendedKeyUsages = [] ∨
      .serverAuth ∈ cert.extendedKeyUsages ∨ .any ∈ cert.extendedKeyUsages := by
  simp [allowsServerAuth, or_assoc]

theorem ofDer_error {der : Octets} {failure : Failure} (h : ofDer der = .error failure) :
    ∃ fault, failure = .parse fault := by
  unfold ofDer at h
  cases hread : X509.Certificate.read? der with
  | none =>
      simp only [hread] at h
      cases h
      exact ⟨_, rfl⟩
  | some parsed =>
      simp only [hread] at h
      cases hsubject : nameOf? parsed.subject with
      | none =>
          simp only [hsubject] at h
          cases h
          exact ⟨_, rfl⟩
      | some subject =>
          simp only [hsubject] at h
          cases hissuer : nameOf? parsed.issuer with
          | none =>
              simp only [hissuer] at h
              cases h
              exact ⟨_, rfl⟩
          | some issuer =>
              simp only [hissuer] at h
              cases h

theorem mapM_ofDer_error {blocks : List Pem.Block} {failure : Failure}
    (h : blocks.mapM (fun block => ofDer block.contents) = .error failure) :
    ∃ fault, failure = .parse fault := by
  induction blocks with
  | nil => cases h
  | cons block rest ih =>
      rw [List.mapM_cons, bind_eq_error_iff] at h
      rcases h with h | ⟨cert, -, h⟩
      · exact ofDer_error h
      · rw [bind_eq_error_iff] at h
        rcases h with h | ⟨certs, -, h⟩
        · exact ih h
        · cases h

theorem decodePem_error {text : Octets} {failure : Failure}
    (h : decodePem text = .error failure) : ∃ fault, failure = .parse fault := by
  unfold decodePem at h
  cases hblocks : Pem.parse text with
  | error fault =>
      simp only [hblocks] at h
      cases h
      exact ⟨_, rfl⟩
  | ok blocks =>
      simp only [hblocks, bind_eq_error_iff] at h
      rcases h with h | ⟨certs, -, h⟩
      · exact mapM_ofDer_error h
      · split at h
        · cases h
          exact ⟨_, rfl⟩
        · cases h

theorem decodePem_ne_nil (text : Octets) : decodePem text ≠ .ok [] := by
  intro h
  unfold decodePem at h
  cases hblocks : Pem.parse text with
  | error fault => simp [hblocks] at h
  | ok blocks =>
      simp only [hblocks, bind_eq_ok_iff, guard_bind_eq_ok_iff, pure_eq_ok_iff] at h
      obtain ⟨certs, -, hne, rfl⟩ := h
      exact hne rfl

end Certificate

namespace TrustPool

/-- A root of a bundle: what one of its certificate blocks holds. -/
def IsRootOf (bundle : Octets) (root : Certificate) : Prop :=
  ∃ blocks, Pem.parse bundle = .ok blocks ∧
    ∃ block ∈ blocks, block.label = Certificate.blockLabel ∧
      Certificate.ofDer block.contents = .ok root

variable {bundle : Octets} {pool : TrustPool} {leaf root : Certificate} {now : Instant}

theorem ofPem_cases (bundle : Octets) :
    (∃ fault, ofPem bundle = .error (.trustStore fault) ∧ ∀ root, ¬IsRootOf bundle root) ∨
      ∃ pool, ofPem bundle = .ok pool ∧ ∀ root, root ∈ pool.roots ↔ IsRootOf bundle root := by
  cases hblocks : Pem.parse bundle with
  | error fault =>
      refine .inl ⟨.malformedPem, ?_, ?_⟩
      · simp only [ofPem, hblocks]
        rfl
      · rintro root ⟨blocks, hparse, -⟩
        rw [hblocks] at hparse
        cases hparse
  | ok blocks =>
      have hroots : ∀ root, root ∈ (blocks.filter (·.label == Certificate.blockLabel)).filterMap
          (fun block => (Certificate.ofDer block.contents).toOption) ↔ IsRootOf bundle root := by
        intro root
        simp only [List.mem_filterMap, List.mem_filter, beq_iff_eq, toOption_eq_some_iff, IsRootOf,
          hblocks, Except.ok.injEq, exists_eq_left', and_assoc]
      by_cases hnone : (blocks.filter (·.label == Certificate.blockLabel)).filterMap
          (fun block => (Certificate.ofDer block.contents).toOption) = []
      · refine .inl ⟨.empty, ?_, ?_⟩
        · simp only [ofPem, hblocks, dif_pos hnone]
          rfl
        · intro root hroot
          rw [← hroots, hnone] at hroot
          cases hroot
      · refine .inr ⟨⟨_, hnone⟩, ?_, hroots⟩
        simp only [ofPem, hblocks, dif_neg hnone]
        rfl

theorem exists_findIssuer_iff :
    (∃ found, pool.findIssuer leaf now = .ok found) ↔
      ∃ root ∈ pool.roots, leaf.IsIssuedBy root ∧ root.isValidAt now = true := by
  constructor
  · rintro ⟨found, hfound⟩
    obtain ⟨hroot, hissued, hvalid⟩ := findIssuer_eq_ok hfound
    exact ⟨found, hroot, hissued, hvalid⟩
  · rintro ⟨root, hroot, hissued, hvalid⟩
    have hnamed : root ∈ pool.roots.filter (·.subject == leaf.issuer) :=
      List.mem_filter.mpr ⟨hroot, beq_iff_eq.mpr hissued.subject⟩
    have hfault : (rootFault? leaf root now).isNone = true := by
      rw [Option.isNone_iff_eq_none, rootFault?_eq_none_iff]
      exact ⟨hissued.isCa, hvalid, hissued.signature⟩
    have hsome : ((pool.roots.filter (·.subject == leaf.issuer)).find?
        fun root => (rootFault? leaf root now).isNone).isSome = true :=
      List.find?_isSome.mpr ⟨root, hnamed, hfault⟩
    obtain ⟨found, hfound⟩ := Option.isSome_iff_exists.mp hsome
    refine ⟨found, ?_⟩
    simp only [findIssuer, hfound]

end TrustPool

/-- A certificate is accepted as that of a server under a bundle at a time. -/
structure Certificate.IsAccepted (leaf : Certificate) (bundle : Octets) (now : Instant) : Prop where
  host : ∃ host hosts, leaf.dnsNames = host :: hosts ∧
    ∀ address, IpAddress.parse? host.toList = some address → address ∈ leaf.ipAddresses
  starts : leaf.notBefore ≤ now
  ends : now ≤ leaf.notAfter
  issuer : ∃ root, TrustPool.IsRootOf bundle root ∧ leaf.IsIssuedBy root ∧
    root.notBefore ≤ now ∧ now ≤ root.notAfter
  usage : leaf.extendedKeyUsages = [] ∨ .serverAuth ∈ leaf.extendedKeyUsages ∨
    .any ∈ leaf.extendedKeyUsages

namespace TlsMaterial

/-- The files hold a private key, and certificates of which the given one is the first. -/
def Holds (material : TlsMaterial) (key : PrivateKey) (leaf : Certificate) : Prop :=
  PrivateKey.decodePem material.keyPem = .ok key ∧
    ∃ chain, Certificate.decodePem material.certPem = .ok (leaf :: chain)

variable {material : TlsMaterial} {bundle : Octets} {now : Instant} {key : PrivateKey}
  {leaf root : Certificate}

theorem verify_of_not_holds (bundle : Octets) (now : Instant)
    (h : ∀ key leaf, ¬material.Holds key leaf) :
    ∃ fault, material.verify bundle now = .error (.parse fault) := by
  unfold verify verifyChain
  cases hkey : PrivateKey.decodePem material.keyPem with
  | error failure =>
      obtain ⟨fault, rfl⟩ := PrivateKey.decodePem_error hkey
      exact ⟨fault, rfl⟩
  | ok key =>
      cases hcerts : Certificate.decodePem material.certPem with
      | error failure =>
          obtain ⟨fault, rfl⟩ := Certificate.decodePem_error hcerts
          exact ⟨fault, rfl⟩
      | ok certs =>
          cases certs with
          | nil => exact absurd hcerts (Certificate.decodePem_ne_nil _)
          | cons leaf chain => exact absurd ⟨hkey, chain, hcerts⟩ (h key leaf)

theorem verify_of_no_root (now : Instant) (hfiles : material.Holds key leaf)
    (h : ∀ root, ¬TrustPool.IsRootOf bundle root) :
    ∃ fault, material.verify bundle now = .error (.trustStore fault) := by
  obtain ⟨hkey, chain, hcerts⟩ := hfiles
  rcases TrustPool.ofPem_cases bundle with ⟨fault, hpool, -⟩ | ⟨pool, -, hroots⟩
  · refine ⟨fault, ?_⟩
    simp only [verify, verifyChain, hkey, hcerts, hpool, ok_bind, error_bind, Except.map]
  · obtain ⟨root, hroot⟩ := List.exists_mem_of_ne_nil _ pool.roots_ne_nil
    exact absurd ((hroots root).mp hroot) (h root)

theorem exists_verify_iff {pool : TrustPool}
    (hroots : ∀ root, root ∈ pool.roots ↔ TrustPool.IsRootOf bundle root) :
    (∃ host hosts root, leaf.dnsNames = host :: hosts ∧ pool.verify leaf host now = .ok root) ↔
      leaf.IsAccepted bundle now := by
  constructor
  · rintro ⟨host, hosts, root, hnames, hverify⟩
    obtain ⟨hvalid, hfound, hhost, husage⟩ := TrustPool.verify_eq_ok_iff.mp hverify
    obtain ⟨hroot, hissued, hrootValid⟩ := TrustPool.findIssuer_eq_ok hfound
    rw [Certificate.isValidAt_iff] at hvalid hrootValid
    exact {
      host := ⟨host, hosts, hnames, (Certificate.isGoodFor_first_iff hnames).mp hhost⟩
      starts := hvalid.1
      ends := hvalid.2
      issuer := ⟨root, (hroots root).mp hroot, hissued, hrootValid⟩
      usage := Certificate.allowsServerAuth_iff.mp husage }
  · rintro ⟨⟨host, hosts, hnames, haddress⟩, hstarts, hends, ⟨root, hroot, hissued, hrootValid⟩,
      husage⟩
    obtain ⟨found, hfound⟩ := TrustPool.exists_findIssuer_iff.mpr
      ⟨root, (hroots root).mpr hroot, hissued, Certificate.isValidAt_iff.mpr hrootValid⟩
    refine ⟨host, hosts, found, hnames, ?_⟩
    rw [TrustPool.verify_eq_ok_iff]
    refine ⟨?_, hfound, ?_, ?_⟩
    · exact Certificate.isValidAt_iff.mpr ⟨hstarts, hends⟩
    · exact (Certificate.isGoodFor_first_iff hnames).mpr haddress
    · exact Certificate.allowsServerAuth_iff.mpr husage

theorem verify_of_not_isAccepted (hfiles : material.Holds key leaf)
    (hroot : TrustPool.IsRootOf bundle root) (h : ¬leaf.IsAccepted bundle now) :
    ∃ fault, material.verify bundle now = .error (.chainVerification fault) := by
  obtain ⟨hkey, chain, hcerts⟩ := hfiles
  rcases TrustPool.ofPem_cases bundle with ⟨fault, -, hnone⟩ | ⟨pool, hpool, hroots⟩
  · exact absurd hroot (hnone root)
  · simp only [verify, verifyChain, hkey, hcerts, hpool, ok_bind]
    cases hnames : leaf.dnsNames with
    | nil => exact ⟨_, rfl⟩
    | cons host hosts =>
        cases hverify : pool.verify leaf host now with
        | error fault =>
            refine ⟨fault, ?_⟩
            simp only [hverify, mapError_error, error_bind, Except.map]
        | ok found =>
            exact absurd ((exists_verify_iff hroots).mp ⟨host, hosts, found, hnames, hverify⟩) h

theorem verify_of_isAccepted (hfiles : material.Holds key leaf)
    (h : leaf.IsAccepted bundle now) :
    material.verify bundle now = leaf.checkKeyPair key := by
  obtain ⟨hkey, chain, hcerts⟩ := hfiles
  rcases TrustPool.ofPem_cases bundle with ⟨fault, -, hnone⟩ | ⟨pool, hpool, hroots⟩
  · obtain ⟨root, hroot, -⟩ := h.issuer
    exact absurd hroot (hnone root)
  · obtain ⟨host, hosts, root, hnames, hverify⟩ := (exists_verify_iff hroots).mpr h
    simp only [verify, verifyChain, hkey, hcerts, hpool, ok_bind, hnames, hverify, mapError_ok]
    cases leaf.checkKeyPair key with
    | error failure => rfl
    | ok _ => rfl

/-- What the check says of material, with the reason. -/
inductive Verdict (material : TlsMaterial) (bundle : Octets) (now : Instant) :
    Except Failure Unit → Prop
  | unreadable {fault : ParseFault} (h : ∀ key leaf, ¬material.Holds key leaf) :
      Verdict material bundle now (.error (.parse fault))
  | untrusted {fault : TrustStoreFault} {key : PrivateKey} {leaf : Certificate}
      (hfiles : material.Holds key leaf) (h : ∀ root, ¬TrustPool.IsRootOf bundle root) :
      Verdict material bundle now (.error (.trustStore fault))
  | refused {fault : ChainFault} {key : PrivateKey} {leaf root : Certificate}
      (hfiles : material.Holds key leaf) (hroot : TrustPool.IsRootOf bundle root)
      (h : ¬leaf.IsAccepted bundle now) :
      Verdict material bundle now (.error (.chainVerification fault))
  | unreadableKey {fault : ParseFault} {key : PrivateKey} {leaf : Certificate}
      (hfiles : material.Holds key leaf) (haccepted : leaf.IsAccepted bundle now)
      (h : leaf.publicKey? = none) : Verdict material bundle now (.error (.parse fault))
  | foreignKey {key : PrivateKey} {leaf : Certificate} {certified : PublicKey}
      (hfiles : material.Holds key leaf) (haccepted : leaf.IsAccepted bundle now)
      (hcertified : leaf.publicKey? = some certified) (h : ¬certified.BelongsTo key) :
      Verdict material bundle now (.error (.keyMismatch key.algorithm leaf.subject))
  | accepted {key : PrivateKey} {leaf : Certificate} {certified : PublicKey}
      (hfiles : material.Holds key leaf) (haccepted : leaf.IsAccepted bundle now)
      (hcertified : leaf.publicKey? = some certified) (h : certified.BelongsTo key) :
      Verdict material bundle now (.ok ())

theorem Verdict.of_checkKeyPair (hfiles : material.Holds key leaf)
    (haccepted : leaf.IsAccepted bundle now) :
    Verdict material bundle now (leaf.checkKeyPair key) := by
  cases hcertified : leaf.publicKey? with
  | none =>
      obtain ⟨fault, hfault⟩ := Certificate.checkKeyPair_of_unreadable hcertified key
      rw [hfault]
      exact .unreadableKey hfiles haccepted hcertified
  | some certified =>
      rw [Certificate.checkKeyPair_of_readable hcertified]
      split
      · rename_i hown
        rw [Certificate.eq_publicKey_iff hcertified] at hown
        exact .accepted hfiles haccepted hcertified hown
      · rename_i hforeign
        rw [Certificate.eq_publicKey_iff hcertified] at hforeign
        exact .foreignKey hfiles haccepted hcertified hforeign

theorem verdict (material : TlsMaterial) (bundle : Octets) (now : Instant) :
    Verdict material bundle now (material.verify bundle now) := by
  by_cases hfiles : ∃ key leaf, material.Holds key leaf
  · obtain ⟨key, leaf, hfiles⟩ := hfiles
    by_cases hroot : ∃ root, TrustPool.IsRootOf bundle root
    · obtain ⟨root, hroot⟩ := hroot
      by_cases haccepted : leaf.IsAccepted bundle now
      · rw [verify_of_isAccepted hfiles haccepted]
        exact .of_checkKeyPair hfiles haccepted
      · obtain ⟨fault, hfault⟩ := verify_of_not_isAccepted hfiles hroot haccepted
        rw [hfault]
        exact .refused hfiles hroot haccepted
    · have hnone : ∀ root, ¬TrustPool.IsRootOf bundle root := fun root h => hroot ⟨root, h⟩
      obtain ⟨fault, hfault⟩ := verify_of_no_root now hfiles hnone
      rw [hfault]
      exact .untrusted hfiles hnone
  · have hnone : ∀ key leaf, ¬material.Holds key leaf := fun key leaf h => hfiles ⟨key, leaf, h⟩
    obtain ⟨fault, hfault⟩ := verify_of_not_holds bundle now hnone
    rw [hfault]
    exact .unreadable hnone

/-- The five verdicts on material. Which one it is depends on what the files hold, on the roots of
the bundle, on whether the first certificate is accepted, and on whether it certifies the key. The
check of the host never refuses a first name that is not the text of an address. -/
theorem verify_verdicts (material : TlsMaterial) (bundle : Octets) (now : Instant) :
    ((∃ fault, material.verify bundle now = .error (.parse fault)) ↔
      (∀ key leaf, ¬material.Holds key leaf) ∨
        ∃ key leaf, material.Holds key leaf ∧ leaf.IsAccepted bundle now ∧
          leaf.publicKey? = none) ∧
    ((∃ fault, material.verify bundle now = .error (.trustStore fault)) ↔
      ∃ key leaf, material.Holds key leaf ∧ ∀ root, ¬TrustPool.IsRootOf bundle root) ∧
    ((∃ fault, material.verify bundle now = .error (.chainVerification fault)) ↔
      ∃ key leaf root, material.Holds key leaf ∧ TrustPool.IsRootOf bundle root ∧
        ¬leaf.IsAccepted bundle now) ∧
    ((∃ algorithm subject, material.verify bundle now = .error (.keyMismatch algorithm subject)) ↔
      ∃ key leaf certified, material.Holds key leaf ∧ leaf.IsAccepted bundle now ∧
        leaf.publicKey? = some certified ∧ ¬certified.BelongsTo key) ∧
    (material.verify bundle now = .ok () ↔
      ∃ key leaf certified, material.Holds key leaf ∧ leaf.IsAccepted bundle now ∧
        leaf.publicKey? = some certified ∧ certified.BelongsTo key) ∧
    ∀ (leaf : Certificate) (host : String) (hosts : List String), leaf.dnsNames = host :: hosts →
      IpAddress.parse? host.toList = none → leaf.isGoodFor host = true := by
  have hverdict := verdict material bundle now
  refine ⟨⟨?_, ?_⟩, ⟨?_, ?_⟩, ⟨?_, ?_⟩, ⟨?_, ?_⟩, ⟨?_, ?_⟩, ?_⟩
  · rintro ⟨fault, hfault⟩
    rw [hfault] at hverdict
    cases hverdict with
    | unreadable h => exact .inl h
    | unreadableKey hfiles haccepted h => exact .inr ⟨_, _, hfiles, haccepted, h⟩
  · rintro (h | ⟨key, leaf, hfiles, haccepted, h⟩)
    · exact verify_of_not_holds bundle now h
    · rw [verify_of_isAccepted hfiles haccepted]
      exact Certificate.checkKeyPair_of_unreadable h key
  · rintro ⟨fault, hfault⟩
    rw [hfault] at hverdict
    cases hverdict with
    | untrusted hfiles h => exact ⟨_, _, hfiles, h⟩
  · rintro ⟨key, leaf, hfiles, h⟩
    exact verify_of_no_root now hfiles h
  · rintro ⟨fault, hfault⟩
    rw [hfault] at hverdict
    cases hverdict with
    | refused hfiles hroot h => exact ⟨_, _, _, hfiles, hroot, h⟩
  · rintro ⟨key, leaf, root, hfiles, hroot, h⟩
    exact verify_of_not_isAccepted hfiles hroot h
  · rintro ⟨algorithm, subject, hmismatch⟩
    rw [hmismatch] at hverdict
    cases hverdict with
    | foreignKey hfiles haccepted hcertified h =>
        exact ⟨_, _, _, hfiles, haccepted, hcertified, h⟩
  · rintro ⟨key, leaf, certified, hfiles, haccepted, hcertified, h⟩
    rw [← Certificate.eq_publicKey_iff hcertified] at h
    rw [verify_of_isAccepted hfiles haccepted, Certificate.checkKeyPair_of_readable hcertified,
      if_neg h]
    exact ⟨_, _, rfl⟩
  · intro hok
    rw [hok] at hverdict
    cases hverdict with
    | accepted hfiles haccepted hcertified h =>
        exact ⟨_, _, _, hfiles, haccepted, hcertified, h⟩
  · rintro ⟨key, leaf, certified, hfiles, haccepted, hcertified, h⟩
    rw [← Certificate.eq_publicKey_iff hcertified] at h
    rw [verify_of_isAccepted hfiles haccepted, Certificate.checkKeyPair_of_readable hcertified,
      if_pos h]
  · intro leaf host hosts hnames hparse
    rw [Certificate.isGoodFor_first_iff hnames, hparse]
    rintro address ⟨⟩

end TlsMaterial

end CertRotation
