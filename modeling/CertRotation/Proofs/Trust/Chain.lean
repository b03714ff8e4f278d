import CertRotation.Proofs.Fallible
import CertRotation.Proofs.Issuance.Validity
import CertRotation.Proofs.Pem
import CertRotation.Trust.TlsMaterial

/-!
What it takes for material to hold under a bundle. Time enters in two places alone, the validity of
the leaf and the validity of the root, so that a chain holds as long as both are valid.
-/

namespace CertRotation

namespace Certificate

/-- A certificate was issued by another: the other is an authority of the right name, and the
signature holds under its key. -/
structure IsIssuedBy (leaf issuer : Certificate) : Prop where
  isCa : issuer.isCa = true
  subject : issuer.subject = leaf.issuer
  signature : leaf.signatureFault? issuer = none

theorem isWritable_block {der : Octets} : (⟨blockLabel, der⟩ : Pem.Block).IsWritable := by
  change blockLabel ≠ "" ∧ 45 ∉ Utf8.encode blockLabel
  decide

theorem decodePem_pem {cert : Certificate} (h : ofDer cert.der = .ok cert) :
    decodePem (Utf8.encode cert.pem) = .ok [cert] := by
  have hblock : Pem.parse (Utf8.encode cert.pem) = .ok [⟨blockLabel, cert.der⟩] :=
    Pem.parse_render isWritable_block
  have hcerts : [(⟨blockLabel, cert.der⟩ : Pem.Block)].mapM (fun block => ofDer block.contents) =
      .ok [cert] := by
    rw [List.mapM_cons, h]
    rfl
  have hkept : [(⟨blockLabel, cert.der⟩ : Pem.Block)].filter (·.label == blockLabel) =
      [⟨blockLabel, cert.der⟩] := by
    simp
  simp only [decodePem, hblock, hkept, hcerts]
  rfl

end Certificate

namespace TrustPool

theorem ofPem_pem {cert : Certificate} (h : Certificate.ofDer cert.der = .ok cert) :
    ofPem (Utf8.encode cert.pem) = .ok ⟨[cert], by simp⟩ := by
  have hblock : Pem.parse (Utf8.encode cert.pem) =
      .ok [⟨Certificate.blockLabel, cert.der⟩] := Pem.parse_render Certificate.isWritable_block
  have hroots : (([(⟨Certificate.blockLabel, cert.der⟩ : Pem.Block)].filter
      (·.label == Certificate.blockLabel)).filterMap
        fun block => (Certificate.ofDer block.contents).toOption) = [cert] := by
    simp [h, Except.toOption]
  simp only [ofPem, hblock, hroots]
  rfl

theorem rootFault?_eq_none_iff {leaf root : Certificate} {now : Instant} :
    rootFault? leaf root now = none ↔
      root.isCa = true ∧ root.isValidAt now = true ∧ leaf.signatureFault? root = none := by
  unfold rootFault?
  cases root.isCa <;> cases root.isValidAt now <;> simp

theorem findIssuer_eq_ok {pool : TrustPool} {leaf root : Certificate} {now : Instant}
    (h : pool.findIssuer leaf now = .ok root) :
    root ∈ pool.roots ∧ leaf.IsIssuedBy root ∧ root.isValidAt now = true := by
  unfold findIssuer at h
  simp only at h
  split at h
  · rename_i found hfound
    cases h
    obtain ⟨hmem, hsubject⟩ := List.mem_filter.mp (List.mem_of_find?_eq_some hfound)
    have hfault := List.find?_some hfound
    rw [Option.isNone_iff_eq_none, rootFault?_eq_none_iff] at hfault
    exact ⟨hmem, ⟨hfault.1, by simpa using hsubject, hfault.2.2⟩, hfault.2.1⟩
  · cases h

theorem findIssuer_of_single {root leaf : Certificate} {now : Instant}
    (hissued : leaf.IsIssuedBy root) (hvalid : root.isValidAt now = true) :
    (⟨[root], by simp⟩ : TrustPool).findIssuer leaf now = .ok root := by
  have hfault : rootFault? leaf root now = none :=
    rootFault?_eq_none_iff.mpr ⟨hissued.isCa, hvalid, hissued.signature⟩
  simp [findIssuer, hissued.subject, hfault]

theorem verify_eq_ok_iff {pool : TrustPool} {leaf root : Certificate} {host : String}
    {now : Instant} :
    pool.verify leaf host now = .ok root ↔
      leaf.isValidAt now = true ∧ pool.findIssuer leaf now = .ok root ∧
        leaf.isGoodFor host = true ∧ leaf.allowsServerAuth = true := by
  simp only [verify, guard_bind_eq_ok_iff, bind_eq_ok_iff, pure_eq_ok_iff]
  constructor
  · rintro ⟨hvalid, found, hfound, hhost, husage, rfl⟩
    exact ⟨by simpa using hvalid, hfound, by simpa using hhost, by simpa using husage⟩
  · rintro ⟨hvalid, hfound, hhost, husage⟩
    exact ⟨by simp [hvalid], root, hfound, by simp [hhost], by simp [husage], rfl⟩

end TrustPool

namespace TlsMaterial

/-- Material holds under a bundle if its files can be read, the first certificate is verified for
its own first host name, and the key is the certificate's. -/
theorem verifyChain_eq_ok_iff {material : TlsMaterial} {bundle : Octets} {now : Instant}
    {leaf root : Certificate} :
    material.verifyChain bundle now = .ok (leaf, root) ↔
      ∃ key chain pool host hosts,
        PrivateKey.decodePem material.keyPem = .ok key ∧
        Certificate.decodePem material.certPem = .ok (leaf :: chain) ∧
        TrustPool.ofPem bundle = .ok pool ∧ leaf.dnsNames = host :: hosts ∧
        pool.verify leaf host now = .ok root ∧ leaf.checkKeyPair key = .ok () := by
  simp only [verifyChain, bind_eq_ok_iff]
  constructor
  · rintro ⟨key, hkey, certs, hcerts, pool, hpool, h⟩
    cases certs with
    | nil => simp at h
    | cons first chain =>
        cases hnames : first.dnsNames with
        | nil => simp [hnames] at h
        | cons host hosts =>
            simp only [hnames, bind_eq_ok_iff, pure_eq_ok_iff, Prod.mk.injEq] at h
            obtain ⟨found, hfound, _, hpair, rfl, rfl⟩ := h
            refine ⟨key, chain, pool, host, hosts, hkey, hcerts, hpool, hnames, ?_, hpair⟩
            cases hverify : pool.verify first host now with
            | error fault => simp [hverify] at hfound
            | ok issuer =>
                rw [hverify] at hfound
                cases hfound
                rfl
  · rintro ⟨key, chain, pool, host, hosts, hkey, hcerts, hpool, hnames, hverify, hpair⟩
    refine ⟨key, hkey, leaf :: chain, hcerts, pool, hpool, ?_⟩
    simp only [hnames, hverify, mapError_ok, hpair]
    rfl

theorem verify_eq_ok_iff {material : TlsMaterial} {bundle : Octets} {now : Instant} :
    material.verify bundle now = .ok () ↔
      ∃ leaf root, material.verifyChain bundle now = .ok (leaf, root) := by
  rw [verify]
  cases material.verifyChain bundle now with
  | error failure => simp [Except.map]
  | ok pair =>
      rcases pair with ⟨leaf, root⟩
      simp [Except.map]

theorem issued_of_verifyChain {material : TlsMaterial} {bundle : Octets} {now : Instant}
    {leaf root : Certificate} (h : material.verifyChain bundle now = .ok (leaf, root)) :
    ∃ chain pool, Certificate.decodePem material.certPem = .ok (leaf :: chain) ∧
      TrustPool.ofPem bundle = .ok pool ∧ root ∈ pool.roots ∧ leaf.IsIssuedBy root := by
  obtain ⟨key, chain, pool, host, hosts, -, hcerts, hpool, -, hverify, -⟩ :=
    verifyChain_eq_ok_iff.mp h
  obtain ⟨-, hfound, -⟩ := TrustPool.verify_eq_ok_iff.mp hverify
  obtain ⟨hroot, hissued, -⟩ := TrustPool.findIssuer_eq_ok hfound
  exact ⟨chain, pool, hcerts, hpool, hroot, hissued⟩

/-- Material that holds under a bundle of one root does so whenever leaf and root are valid. -/
theorem verifyChain_of_isValidAt {material : TlsMaterial} {now later : Instant}
    {leaf root ca : Certificate} (hca : Certificate.ofDer ca.der = .ok ca)
    (h : material.verifyChain (Utf8.encode ca.pem) now = .ok (leaf, root))
    (hleaf : leaf.isValidAt later = true) (hvalid : ca.isValidAt later = true) :
    material.verifyChain (Utf8.encode ca.pem) later = .ok (leaf, ca) := by
  obtain ⟨key, chain, pool, host, hosts, hkey, hcerts, hpool, hnames, hverify, hpair⟩ :=
    verifyChain_eq_ok_iff.mp h
  obtain ⟨-, hfound, hhost, husage⟩ := TrustPool.verify_eq_ok_iff.mp hverify
  obtain ⟨hroot, hissued, -⟩ := TrustPool.findIssuer_eq_ok hfound
  have hsingle := TrustPool.ofPem_pem hca
  obtain rfl : ⟨[ca], by simp⟩ = pool := Except.ok.inj (hsingle.symm.trans hpool)
  obtain rfl : root = ca := List.mem_singleton.mp hroot
  rw [verifyChain_eq_ok_iff]
  refine ⟨key, chain, _, host, hosts, hkey, hcerts, hsingle, hnames, ?_, hpair⟩
  rw [TrustPool.verify_eq_ok_iff]
  exact ⟨hleaf, TrustPool.findIssuer_of_single hissued hvalid, hhost, husage⟩

end TlsMaterial

/-! A small chain: an authority with an RSA key of 1024 bits, and a leaf that it has signed. -/

namespace Sample

open Asn1

/-- The number of 256-bit words, the highest first. -/
def ofWords (words : List Nat) : Nat := words.foldl (fun acc word => acc * Nat.pow 2 256 + word) 0

/-- The modulus of the authority's key, whose exponent is 3. -/
def modulus : Nat :=
  ofWords [
    0xc92f2f48cd27f698d530a5e46871639f9841df8ba9999737013615245f7a5cbb,
    0x3ef41baa33b32d90e129168118ba368d41632f7ae27a6f10df5c870d9537a4a3,
    0x31e6d2fb3115953c8d63cd8f71a2612d24998746bde85e974b4c9ef5179d7fbf,
    0x2f90ebf281f895d24666dcca9b094deb97e096069cb822bb852970d2235bbcc5]

/-- The signature of the authority on the leaf. -/
def signature : Nat :=
  ofWords [
    0x1aae266540e63f7c3df44b1e0ed842f0c41ce3fb45476adb340a2f254efdf5da,
    0x3f955649a92eeefa307cfd3c03afe5aacb1805e2d5fbf498caaf626675688e7e,
    0xc2997f684966b50db01545712b6895277c89745b837961e0e256ff302c9f79c7,
    0xb398bb0cb3e1eb9b5d73f7649bf8cc9d2c158666ce24b0793d31e5fc2fd7d2b6]

def algorithm : Octets := sequence [Oid.sha1WithRsa.encode, null]

/-- A certificate of a template with an RSA key and a signature. -/
def certificate (template : X509.Template) (signature : Octets) : Octets :=
  sequence [template.signedPart algorithm, algorithm, bitString signature]

def publicKeyInfo (n e : Nat) : Octets :=
  sequence [Rsa.algorithmDer, bitString (sequence [natural n, natural e])]

/-- The authority, which needs no signature of its own to be trusted. -/
def authority : Octets :=
  certificate ⟨1, ⟨"ca", []⟩, ⟨0, 0⟩, ⟨1000000000, 0⟩, ⟨"ca", []⟩, publicKeyInfo modulus 3,
    [X509.authorityExtension]⟩ []

/-- The leaf, for one host and an RSA key with the primes 3 and 5. -/
def leaf : Octets :=
  certificate ⟨2, ⟨"ca", []⟩, ⟨0, 0⟩, ⟨1000000000, 0⟩, ⟨"hook", []⟩, publicKeyInfo 15 3,
    [X509.altNameExtension [.dns "hook.ops.svc"]]⟩ (Octets.ofNat 128 signature)

def key : Octets := sequence ([0, 15, 3, 3, 3, 5, 1, 3, 2].map natural)

def material : TlsMaterial where
  keyPem := Utf8.encode (Pem.render ⟨PrivateKey.pkcs1Label, key⟩)
  certPem := Utf8.encode (Pem.render ⟨Certificate.blockLabel, leaf⟩)

def bundle : Octets := Utf8.encode (Pem.render ⟨Certificate.blockLabel, authority⟩)

def now : Instant := ⟨5, 0⟩

theorem parse_files (authority : Octets) :
    Pem.parse material.keyPem = .ok [⟨PrivateKey.pkcs1Label, key⟩] ∧
      Pem.parse material.certPem = .ok [⟨Certificate.blockLabel, leaf⟩] ∧
      Pem.parse (Utf8.encode (Pem.render ⟨Certificate.blockLabel, authority⟩)) =
        .ok [⟨Certificate.blockLabel, authority⟩] := by
  have hkey : (⟨PrivateKey.pkcs1Label, key⟩ : Pem.Block).IsWritable := by
    change PrivateKey.pkcs1Label ≠ "" ∧ 45 ∉ Utf8.encode PrivateKey.pkcs1Label
    decide
  exact ⟨Pem.parse_render hkey, Pem.parse_render Certificate.isWritable_block,
    Pem.parse_render Certificate.isWritable_block⟩

theorem verifyChain : ∃ leaf ca, material.verifyChain bundle now = .ok (leaf, ca) := by
  obtain ⟨hkey, hcert, hbundle⟩ := parse_files authority
  have hholds : (material.verifyChain bundle now).toBool = true := by
    rw [TlsMaterial.verifyChain, PrivateKey.decodePem, Certificate.decodePem, TrustPool.ofPem,
      bundle, hkey, hcert, hbundle]
    decide +kernel
  obtain ⟨⟨leaf, ca⟩, hchain⟩ := exists_ok_of_toBool hholds
  exact ⟨leaf, ca, hchain⟩

end Sample

end CertRotation
