import CertRotation.Proofs.Issuance.Acceptance
import CertRotation.Proofs.WebhookIdentity

namespace CertRotation

namespace WebhookIdentity

variable {id other : WebhookIdentity} {host pattern spelling : String}

theorem isPlain_of_mem_serviceHostnames (hid : id.check = .ok ())
    (h : host ∈ id.serviceHostnames) : Hostname.IsPlain host := by
  obtain ⟨rest, hrest, htext⟩ := toList_of_mem_serviceHostnames h
  obtain ⟨hname, hspace⟩ := isLabelChar_of_check hid
  have hends : '*' ∉ rest.toList ∧ rest.toList.map Char.toLower = rest.toList ∧
      ∃ letter ∈ rest.toList.getLast?, letter ≠ '.' := by
    simp only [List.mem_cons, List.not_mem_nil, or_false] at hrest
    rcases hrest with rfl | rfl <;> exact ⟨by decide, by decide, _, rfl, by decide⟩
  obtain ⟨hstar, hlower, letter, hletter, hdot⟩ := hends
  have hlabel {label : List Char} (hchars : ∀ c ∈ label, isLabelChar c = true) :
      '*' ∉ label ∧ label.map Char.toLower = label := by
    refine ⟨fun hmem => ne_of_isLabelChar (hchars _ hmem) (by decide) rfl, ?_⟩
    calc
      label.map Char.toLower = label.map fun c => c :=
        List.map_congr_left fun c hmem => toLower_of_isLabelChar (hchars c hmem)
      _ = label := List.map_id' label
  obtain ⟨hnameStar, hnameLower⟩ := hlabel hname
  obtain ⟨hspaceStar, hspaceLower⟩ := hlabel hspace
  have hdotLower : Char.toLower '.' = '.' := by decide
  constructor
  · rw [htext]
    simp [hnameStar, hspaceStar, hstar]
  · rw [htext]
    simp only [List.map_append, List.map_cons, hnameLower, hspaceLower, hlower, hdotLower]
  · have hlast : host.toList.getLast? = some letter := by
      rw [htext]
      simp only [List.getLast?_append, List.getLast?_cons]
      rw [Option.mem_def.mp hletter]
      rfl
    rw [hlast]
    exact fun h => hdot (Option.some.inj h)

theorem parse?_eq_none_of_isSpelledAs (h : host ∈ id.serviceHostnames)
    (hspelling : Hostname.IsSpelledAs host spelling) :
    IpAddress.parse? spelling.toList = none := by
  obtain ⟨letters, dots, htext, hletters⟩ := hspelling
  obtain ⟨rest, hrest, hhost⟩ := toList_of_mem_serviceHostnames h
  have hletter : 's' ∈ host.toList := by
    have hrestLetter : 's' ∈ rest.toList := by
      simp only [List.mem_cons, List.not_mem_nil, or_false] at hrest
      rcases hrest with rfl | rfl <;> decide
    rw [hhost]
    simp [hrestLetter]
  have hlower : 's' ∈ letters.map Char.toLower := by
    rw [hletters]
    exact List.mem_map.mpr ⟨'s', hletter, by decide⟩
  obtain ⟨c, hc, hsmall⟩ := List.mem_map.mp hlower
  have hcase : c = 's' ∨ c = 'S' := by
    unfold Char.toLower at hsmall
    split at hsmall
    · have hvalue := congrArg (fun letter => letter.val - 32) hsmall
      exact .inr (Char.ext (by simpa using hvalue))
    · exact .inl hsmall
  have hmem : c ∈ spelling.toList := by
    rw [htext]
    exact List.mem_append_left _ hc
  apply IpAddress.parse?_eq_none hmem
  rcases hcase with rfl | rfl <;> decide

end WebhookIdentity

/-- A certificate for the hosts of a service is good for the spellings of a host of a service
exactly if the services are one. -/
theorem Certificate.isGoodFor_iff {id other : WebhookIdentity} {cert : Certificate}
    {host spelling : String} (hid : id.check = .ok ()) (hother : other.check = .ok ())
    (hnames : cert.dnsNames = id.serviceHostnames) (h : host ∈ other.serviceHostnames)
    (hspelling : Hostname.IsSpelledAs host spelling) :
    cert.isGoodFor spelling = true ↔ id.name = other.name ∧ id.space = other.space := by
  have haddress := WebhookIdentity.parse?_eq_none_of_isSpelledAs h hspelling
  have hplain := WebhookIdentity.isPlain_of_mem_serviceHostnames hother h
  simp only [isGoodFor, haddress, hnames, List.any_eq_true]
  constructor
  · rintro ⟨pattern, hpattern, hcovered⟩
    have hpatternPlain := WebhookIdentity.isPlain_of_mem_serviceHostnames hid hpattern
    rw [Hostname.isCoveredBy_iff hspelling hplain hpatternPlain] at hcovered
    subst hcovered
    exact WebhookIdentity.eq_of_mem_serviceHostnames hid hother hpattern h
  · rintro ⟨hname, hspace⟩
    have hmem : host ∈ id.serviceHostnames := by
      simpa only [WebhookIdentity.serviceHostnames, WebhookIdentity.shortHostname, hname,
        hspace] using h
    refine ⟨host, hmem, ?_⟩
    rw [Hostname.isCoveredBy_iff hspelling hplain hplain]

namespace TrustPool

theorem verify_of_isIssuedBy {root leaf : Certificate} {host : String} {now : Instant}
    (hleaf : leaf.isValidAt now = true) (hroot : root.isValidAt now = true)
    (hissued : leaf.IsIssuedBy root) (husage : leaf.allowsServerAuth = true) :
    (⟨[root], by simp⟩ : TrustPool).verify leaf host now =
      if leaf.isGoodFor host then .ok root else .error (.wrongHost leaf.san host) := by
  have hfound := findIssuer_of_single hissued hroot
  rw [verify, hfound, hleaf, husage]
  cases leaf.isGoodFor host with
  | false => rfl
  | true => rfl

end TrustPool

/-- While its authority and itself are valid, the certificate of a webhook is verified for each
host of its service, in any spelling, if the signatures of the authority's key hold. It is refused
for each host of another service, and then for no other reason than the host. -/
theorem verify_serviceHostnames {id : WebhookIdentity} {caOrganization organization : List String}
    {caKey key : PrivateKey} {caDuration duration : Duration} {caNow now : Instant}
    {serial : LeafSerial} {ca leaf : Certificate} (hid : id.check = .ok ())
    (hca : Issuance.issueAuthority (id.caConfig caOrganization) caKey caDuration caNow = .ok ca)
    (hleaf : Issuance.issueLeaf (id.leafConfig organization) key ca caKey duration now serial =
      .ok leaf) :
    ∃ pool, TrustPool.ofPem (Utf8.encode ca.pem) = .ok pool ∧
      ∀ t, ca.isValidAt t = true → leaf.isValidAt t = true →
        (caKey.SignsSoundly → ∀ host ∈ id.serviceHostnames,
          ∀ spelling, Hostname.IsSpelledAs host spelling → pool.verify leaf spelling t = .ok ca) ∧
        ∀ other : WebhookIdentity, other.check = .ok () →
          other.name ≠ id.name ∨ other.space ≠ id.space →
          ∀ host ∈ other.serviceHostnames, ∀ spelling, Hostname.IsSpelledAs host spelling →
            ∃ fault, pool.verify leaf spelling t = .error fault ∧
              (caKey.SignsSoundly → fault = .wrongHost leaf.san spelling) := by
  obtain ⟨-, hsan, husages, -⟩ := Issuance.issueLeaf_contents hleaf
  have hnames : leaf.dnsNames = id.serviceHostnames := by
    rw [Certificate.dnsNames, hsan, SubjectConfig.dns?_altNames]
    rfl
  have husage : leaf.allowsServerAuth = true :=
    Certificate.allowsServerAuth_iff.mpr (.inr (.inl ((husages _).mpr List.mem_cons_self)))
  refine ⟨_, TrustPool.ofPem_pem (Issuance.ofDer_issueAuthority hca), ?_⟩
  intro t hcaValid hleafValid
  have hverify (hsound : caKey.SignsSoundly) (spelling : String) :=
    @TrustPool.verify_of_isIssuedBy _ _ spelling _ hleafValid hcaValid
      (Issuance.isIssuedBy_of_issue hsound hca hleaf) husage
  constructor
  · intro hsound host hhost spelling hspelling
    rw [hverify hsound spelling, if_pos]
    exact (Certificate.isGoodFor_iff hid hid hnames hhost hspelling).mpr ⟨rfl, rfl⟩
  · intro other hother hdiffers host hhost spelling hspelling
    have hforeign : ¬leaf.isGoodFor spelling = true := by
      rw [Certificate.isGoodFor_iff hid hother hnames hhost hspelling]
      rintro ⟨hname, hspace⟩
      rcases hdiffers with hdiffers | hdiffers
      · exact hdiffers hname.symm
      · exact hdiffers hspace.symm
    cases hresult : TrustPool.verify ⟨[ca], by simp⟩ leaf spelling t with
    | error fault =>
        refine ⟨fault, rfl, fun hsound => ?_⟩
        rw [hverify hsound spelling, if_neg hforeign] at hresult
        exact (Except.error.inj hresult).symm
    | ok root =>
        obtain ⟨-, -, hgood, -⟩ := TrustPool.verify_eq_ok_iff.mp hresult
        exact absurd hgood hforeign

/-- The other service bears the name of the first in a space of another name. -/
theorem verify_serviceHostnames_sample : ∃ ca leaf pool,
    Issuance.issueAuthority (Sample.identity.caConfig ["ops"]) (.rsa Sample.signingKey)
      (.ofSeconds 1) Sample.issuedAt = .ok ca ∧
    Issuance.issueLeaf (Sample.identity.leafConfig ["ops"]) (.rsa Sample.signingKey) ca
      (.rsa Sample.signingKey) (.ofSeconds 1) Sample.issuedAt (.ofRandom 7) = .ok leaf ∧
    Sample.identity.check = .ok () ∧ (PrivateKey.rsa Sample.signingKey).SignsSoundly ∧
    ca.isValidAt Sample.issuedAt = true ∧ leaf.isValidAt Sample.issuedAt = true ∧
    TrustPool.ofPem (Utf8.encode ca.pem) = .ok pool ∧
    pool.verify leaf "Hook.OPS.svc.." Sample.issuedAt = .ok ca ∧
    pool.verify leaf "hook.ops-svc.SVC." Sample.issuedAt =
      .error (.wrongHost leaf.san "hook.ops-svc.SVC.") := by
  obtain ⟨ca, leaf, hca, hleaf⟩ := Sample.exists_issue
  have hid : Sample.identity.check = .ok () := by decide
  obtain ⟨pool, hpool, hverify⟩ := verify_serviceHostnames hid hca hleaf
  obtain ⟨hfrom, hto⟩ := Issuance.isValidAt_of_issueAuthority hca (by decide)
  obtain ⟨hbefore, hafter⟩ := Issuance.validity_eq_of_issue hca hleaf
  have hcaValid : ca.isValidAt Sample.issuedAt = true := Certificate.isValidAt_iff.mpr ⟨hfrom, hto⟩
  have hleafValid : leaf.isValidAt Sample.issuedAt = true := by
    rwa [Certificate.isValidAt_iff, hbefore, hafter, ← Certificate.isValidAt_iff]
  obtain ⟨hown, hother⟩ := hverify Sample.issuedAt hcaValid hleafValid
  obtain ⟨fault, hrefused, hfault⟩ := hother ⟨"hook", "ops-svc", .mutating⟩ (by decide) (by decide)
    "hook.ops-svc.svc" (by decide) "hook.ops-svc.SVC."
    ⟨"hook.ops-svc.SVC".toList, 1, by decide, by decide⟩
  refine ⟨ca, leaf, pool, hca, hleaf, hid, Sample.signsSoundly_signingKey, hcaValid, hleafValid,
    hpool, ?_, ?_⟩
  · exact hown Sample.signsSoundly_signingKey "hook.ops.svc" (by decide) _
      ⟨"Hook.OPS.svc".toList, 2, by decide, by decide⟩
  · rw [hrefused, hfault Sample.signsSoundly_signingKey]

end CertRotation
