import CertRotation.Proofs.Pem.Pieces
import CertRotation.Proofs.Trust.Verdict

namespace CertRotation

/-- A certificate passes the checks that no root has a part in. -/
structure Certificate.PassesAlone (leaf : Certificate) (host : String) (now : Instant) : Prop where
  valid : leaf.isValidAt now = true
  host : leaf.isGoodFor host = true
  usage : leaf.allowsServerAuth = true

namespace TrustPool

/-- A root that stands behind a certificate at a time: it issued the certificate and is valid. -/
structure IsEligible (leaf : Certificate) (now : Instant) (root : Certificate) : Prop where
  issued : leaf.IsIssuedBy root
  valid : root.isValidAt now = true

/-- A certificate is accepted for a host at a time. -/
def Accepts (pool : TrustPool) (leaf : Certificate) (host : String) (now : Instant) : Prop :=
  ∃ root, pool.verify leaf host now = .ok root

/-- A root is the first of several that stands behind a certificate. -/
def IsFirstEligible (roots : List Certificate) (leaf : Certificate) (now : Instant)
    (root : Certificate) : Prop :=
  ∃ before after, roots = before ++ root :: after ∧ IsEligible leaf now root ∧
    ∀ other ∈ before, ¬IsEligible leaf now other

/-- The certificates that can be read from the certificate blocks among others, in order. -/
def rootsOf (blocks : List Pem.Block) : List Certificate :=
  (blocks.filter (·.label == Certificate.blockLabel)).filterMap fun block =>
    (Certificate.ofDer block.contents).toOption

/-- What never stands behind a certificate at a time: blocks of other kinds, certificates that
cannot be read, and roots that are no authority, not valid at the time, of another name, or under
whose key the signature does not hold. -/
inductive IsClutter (leaf : Certificate) (now : Instant) (block : Pem.Block) : Prop
  | otherKind (h : block.label ≠ Certificate.blockLabel)
  | unreadable {failure : Failure} (h : Certificate.ofDer block.contents = .error failure)
  | notCa {root : Certificate} (hroot : Certificate.ofDer block.contents = .ok root)
      (h : root.isCa = false)
  | notValid {root : Certificate} (hroot : Certificate.ofDer block.contents = .ok root)
      (h : root.isValidAt now = false)
  | stranger {root : Certificate} (hroot : Certificate.ofDer block.contents = .ok root)
      (h : root.subject ≠ leaf.issuer)
  | impostor {root : Certificate} (hroot : Certificate.ofDer block.contents = .ok root)
      (hname : root.subject = leaf.issuer) (h : leaf.signatureFault? root ≠ none)

/-- The blocks of a bundle rearranged: in another order, with copies of some, or with clutter
anywhere between them. -/
inductive Rearranged (leaf : Certificate) (now : Instant) :
    List Pem.Block → List Pem.Block → Prop
  | permuted {blocks blocks' : List Pem.Block} (h : blocks.Perm blocks') :
      Rearranged leaf now blocks blocks'
  | inserted {before after : List Pem.Block} {block : Pem.Block}
      (h : block ∈ before ++ after ∨ IsClutter leaf now block) :
      Rearranged leaf now (before ++ after) (before ++ block :: after)
  | trans {blocks blocks' blocks'' : List Pem.Block} (h : Rearranged leaf now blocks blocks')
      (h' : Rearranged leaf now blocks' blocks'') : Rearranged leaf now blocks blocks''

variable {leaf root : Certificate} {host : String} {now : Instant} {pool pool' : TrustPool}
  {bundle bundle' front rest : Octets} {block : Pem.Block} {blocks blocks' : List Pem.Block}
  {roots more : List Certificate}

theorem mem_rootsOf_iff : root ∈ rootsOf blocks ↔ ∃ block ∈ blocks,
    block.label = Certificate.blockLabel ∧ Certificate.ofDer block.contents = .ok root := by
  simp only [rootsOf, List.mem_filterMap, List.mem_filter, beq_iff_eq, toOption_eq_some_iff,
    and_assoc]

theorem rootsOf_append (blocks blocks' : List Pem.Block) :
    rootsOf (blocks ++ blocks') = rootsOf blocks ++ rootsOf blocks' := by
  rw [rootsOf, List.filter_append, List.filterMap_append]
  rfl

theorem ofPem_eq_ok_iff : ofPem bundle = .ok pool ↔
    ∃ blocks, Pem.parse bundle = .ok blocks ∧ pool.roots = rootsOf blocks := by
  cases hblocks : Pem.parse bundle with
  | error fault => simp [ofPem, hblocks]
  | ok blocks =>
      obtain ⟨roots, hne⟩ := pool
      have hsame : (blocks.filter (·.label == Certificate.blockLabel)).filterMap
          (fun block => (Certificate.ofDer block.contents).toOption) = rootsOf blocks := rfl
      simp only [ofPem, hblocks, hsame, Except.ok.injEq, exists_eq_left']
      constructor
      · intro h
        split at h
        · cases h
        · cases h
          rfl
      · rintro rfl
        rw [dif_neg hne]
        rfl

theorem exists_ofPem (h : Pem.parse bundle = .ok blocks) (hroot : root ∈ rootsOf blocks) :
    ∃ pool, ofPem bundle = .ok pool ∧ pool.roots = rootsOf blocks :=
  ⟨⟨rootsOf blocks, List.ne_nil_of_mem hroot⟩, ofPem_eq_ok_iff.mpr ⟨blocks, h, rfl⟩, rfl⟩

theorem isEligible_iff : (root.subject == leaf.issuer) = true ∧
    (rootFault? leaf root now).isNone = true ↔ IsEligible leaf now root := by
  rw [beq_iff_eq, Option.isNone_iff_eq_none, rootFault?_eq_none_iff]
  constructor
  · rintro ⟨hsubject, hca, hvalid, hsignature⟩
    exact ⟨⟨hca, hsubject, hsignature⟩, hvalid⟩
  · rintro ⟨⟨hca, hsubject, hsignature⟩, hvalid⟩
    exact ⟨hsubject, hca, hvalid, hsignature⟩

theorem findIssuer_eq_ok_iff : pool.findIssuer leaf now = .ok root ↔
    IsFirstEligible pool.roots leaf now root := by
  -- The faults that the search keeps only matter if it finds nothing.
  have hfind : pool.findIssuer leaf now = .ok root ↔
      (pool.roots.filter (·.subject == leaf.issuer)).find?
        (fun root => (rootFault? leaf root now).isNone) = some root := by
    unfold findIssuer
    simp only
    split
    · rename_i found hfound
      rw [hfound, Except.ok.injEq, Option.some.injEq]
    · rename_i hnone
      simp [hnone]
  rw [hfind, List.find?_filter, List.find?_eq_some_iff_append]
  simp only [decide_eq_true_eq, Bool.not_eq_true', decide_eq_false_iff_not, isEligible_iff]
  constructor
  · rintro ⟨heligible, before, after, hroots, hbefore⟩
    exact ⟨before, after, hroots, heligible, hbefore⟩
  · rintro ⟨before, after, hroots, heligible, hbefore⟩
    exact ⟨heligible, before, after, hroots, hbefore⟩

/-- The verdict on a certificate: its own checks pass, and some root is the first eligible one. -/
theorem verify_eq_ok_iff_first : pool.verify leaf host now = .ok root ↔
    leaf.PassesAlone host now ∧ IsFirstEligible pool.roots leaf now root := by
  rw [verify_eq_ok_iff, findIssuer_eq_ok_iff]
  constructor
  · rintro ⟨hvalid, hfirst, hhost, husage⟩
    exact ⟨⟨hvalid, hhost, husage⟩, hfirst⟩
  · rintro ⟨⟨hvalid, hhost, husage⟩, hfirst⟩
    exact ⟨hvalid, hfirst, hhost, husage⟩

/-- A certificate is accepted exactly if its own checks pass and some root is eligible. -/
theorem accepts_iff : pool.Accepts leaf host now ↔
    leaf.PassesAlone host now ∧ ∃ root ∈ pool.roots, IsEligible leaf now root := by
  have hfound := @exists_findIssuer_iff pool leaf now
  simp only [findIssuer_eq_ok_iff] at hfound
  simp only [Accepts, verify_eq_ok_iff_first, exists_and_left, hfound]
  constructor
  · rintro ⟨halone, root, hroot, hissued, hvalid⟩
    exact ⟨halone, root, hroot, hissued, hvalid⟩
  · rintro ⟨halone, root, hroot, hissued, hvalid⟩
    exact ⟨halone, root, hroot, hissued, hvalid⟩

theorem IsFirstEligible.append (h : IsFirstEligible roots leaf now root)
    (more : List Certificate) : IsFirstEligible (roots ++ more) leaf now root := by
  obtain ⟨before, after, rfl, heligible, hbefore⟩ := h
  refine ⟨before, after ++ more, ?_, heligible, hbefore⟩
  rw [List.append_assoc, List.cons_append]

theorem verify_of_roots_append (hroots : pool'.roots = pool.roots ++ more)
    (h : pool.verify leaf host now = .ok root) : pool'.verify leaf host now = .ok root := by
  rw [verify_eq_ok_iff_first] at h ⊢
  rw [hroots]
  exact ⟨h.1, h.2.append more⟩

theorem IsClutter.not_isEligible (h : IsClutter leaf now block)
    (hlabel : block.label = Certificate.blockLabel)
    (hroot : Certificate.ofDer block.contents = .ok root) : ¬IsEligible leaf now root := by
  rintro ⟨⟨hca, hsubject, hsignature⟩, hvalid⟩
  cases h with
  | otherKind h => exact h hlabel
  | unreadable h =>
      rw [hroot] at h
      cases h
  | notCa hother h =>
      obtain rfl := Except.ok.inj (hroot.symm.trans hother)
      rw [hca] at h
      cases h
  | notValid hother h =>
      obtain rfl := Except.ok.inj (hroot.symm.trans hother)
      rw [hvalid] at h
      cases h
  | stranger hother h =>
      obtain rfl := Except.ok.inj (hroot.symm.trans hother)
      exact h hsubject
  | impostor hother _ h =>
      obtain rfl := Except.ok.inj (hroot.symm.trans hother)
      exact h hsignature

theorem Rearranged.mem (h : Rearranged leaf now blocks blocks') : blocks ⊆ blocks' ∧
    ∀ block ∈ blocks', block ∈ blocks ∨ IsClutter leaf now block := by
  induction h with
  | permuted h => exact ⟨h.subset, fun block hblock => .inl (h.mem_iff.mpr hblock)⟩
  | @inserted before after added h =>
      have hmem {block : Pem.Block} :
          block ∈ before ++ added :: after ↔ block = added ∨ block ∈ before ++ after :=
        List.perm_middle.mem_iff.trans List.mem_cons
      refine ⟨fun block hblock => hmem.mpr (.inr hblock), fun block hblock => ?_⟩
      rcases hmem.mp hblock with rfl | hblock
      · exact h
      · exact .inl hblock
  | trans _ _ ih ih' =>
      refine ⟨fun block hblock => ih'.1 (ih.1 hblock), fun block hblock => ?_⟩
      rcases ih'.2 block hblock with hblock | hclutter
      · exact ih.2 block hblock
      · exact .inr hclutter

/-- Rearranging adds no eligible root and loses none. -/
theorem Rearranged.exists_isEligible_iff (h : Rearranged leaf now blocks blocks') :
    (∃ root ∈ rootsOf blocks', IsEligible leaf now root) ↔
      ∃ root ∈ rootsOf blocks, IsEligible leaf now root := by
  obtain ⟨hsubset, hadded⟩ := h.mem
  simp only [mem_rootsOf_iff]
  constructor
  · rintro ⟨root, ⟨block, hblock, hlabel, hroot⟩, heligible⟩
    rcases hadded block hblock with hblock | hclutter
    · exact ⟨root, ⟨block, hblock, hlabel, hroot⟩, heligible⟩
    · exact absurd heligible (hclutter.not_isEligible hlabel hroot)
  · rintro ⟨root, ⟨block, hblock, hroot⟩, heligible⟩
    exact ⟨root, ⟨block, hsubset hblock, hroot⟩, heligible⟩

theorem rootsOf_subset (h : blocks ⊆ blocks') : rootsOf blocks ⊆ rootsOf blocks' := by
  intro root hroot
  obtain ⟨block, hblock, hholds⟩ := mem_rootsOf_iff.mp hroot
  exact mem_rootsOf_iff.mpr ⟨block, h hblock, hholds⟩

theorem exists_ofPem_of_subset (hroots : pool.roots = rootsOf blocks) (hsubset : blocks ⊆ blocks')
    (h : Pem.parse bundle' = .ok blocks') :
    ∃ pool', ofPem bundle' = .ok pool' ∧ pool'.roots = rootsOf blocks' := by
  obtain ⟨root, hroot⟩ := List.exists_mem_of_ne_nil _ pool.roots_ne_nil
  rw [hroots] at hroot
  exact exists_ofPem h (rootsOf_subset hsubset hroot)

theorem Accepts.mono (hsubset : pool.roots ⊆ pool'.roots) (h : pool.Accepts leaf host now) :
    pool'.Accepts leaf host now := by
  obtain ⟨halone, root, hroot, heligible⟩ := accepts_iff.mp h
  exact accepts_iff.mpr ⟨halone, root, hsubset hroot, heligible⟩

/-- A bundle accepts a certificate that passes its own checks exactly if it has an eligible root,
and then the first of these is found. So neither the order of its blocks counts for acceptance, nor
copies of them or clutter between them; more blocks never undo an acceptance, and at the end they
leave the root that is found. -/
theorem verify_of_bundle (leaf : Certificate) (host : String) (now : Instant) {bundle : Octets}
    {pool : TrustPool} (h : ofPem bundle = .ok pool) :
    ∃ blocks, Pem.parse bundle = .ok blocks ∧ pool.roots = rootsOf blocks ∧
      (∀ root, pool.verify leaf host now = .ok root ↔
        leaf.PassesAlone host now ∧ IsFirstEligible pool.roots leaf now root) ∧
      (pool.Accepts leaf host now ↔
        leaf.PassesAlone host now ∧ ∃ root ∈ pool.roots, IsEligible leaf now root) ∧
      (∀ bundle' blocks', Pem.parse bundle' = .ok blocks' →
        (Rearranged leaf now blocks blocks' → ∃ pool', ofPem bundle' = .ok pool' ∧
          (pool'.Accepts leaf host now ↔ pool.Accepts leaf host now)) ∧
        (blocks ⊆ blocks' → ∃ pool', ofPem bundle' = .ok pool' ∧
          (pool.Accepts leaf host now → pool'.Accepts leaf host now)) ∧
        (blocks <+: blocks' → ∃ pool', ofPem bundle' = .ok pool' ∧
          ∀ root, pool.verify leaf host now = .ok root →
            pool'.verify leaf host now = .ok root)) ∧
      (∀ rest pool', ofPem (bundle ++ rest) = .ok pool' →
        ∀ root, pool.verify leaf host now = .ok root → pool'.verify leaf host now = .ok root) ∧
      ∀ front others, Pem.IsComplete front → Pem.parse front = .ok others →
        ∃ pool', ofPem (front ++ bundle) = .ok pool' ∧
          (pool.Accepts leaf host now → pool'.Accepts leaf host now) := by
  obtain ⟨blocks, hblocks, hroots⟩ := ofPem_eq_ok_iff.mp h
  have hadd {bundle' : Octets} {blocks' : List Pem.Block}
      (hblocks' : Pem.parse bundle' = .ok blocks') (hsubset : blocks ⊆ blocks') :
      ∃ pool', ofPem bundle' = .ok pool' ∧
        (pool.Accepts leaf host now → pool'.Accepts leaf host now) := by
    obtain ⟨pool', hpool', hroots'⟩ := exists_ofPem_of_subset hroots hsubset hblocks'
    refine ⟨pool', hpool', Accepts.mono ?_⟩
    rw [hroots, hroots']
    exact rootsOf_subset hsubset
  refine ⟨blocks, hblocks, hroots, fun _ => verify_eq_ok_iff_first, accepts_iff, ?_, ?_, ?_⟩
  -- Other bundles, as the blocks they hold.
  · intro bundle' blocks' hblocks'
    refine ⟨fun hrearranged => ?_, hadd hblocks', ?_⟩
    · obtain ⟨pool', hpool', hroots'⟩ :=
        exists_ofPem_of_subset hroots hrearranged.mem.1 hblocks'
      refine ⟨pool', hpool', ?_⟩
      rw [accepts_iff, accepts_iff, hroots, hroots', hrearranged.exists_isEligible_iff]
    · rintro ⟨more, rfl⟩
      obtain ⟨pool', hpool', hroots'⟩ :=
        exists_ofPem_of_subset hroots (List.subset_append_left blocks more) hblocks'
      rw [rootsOf_append, ← hroots] at hroots'
      exact ⟨pool', hpool', fun root hroot => verify_of_roots_append hroots' hroot⟩
  -- Other bundles, as texts put before or after this one.
  · intro rest pool' hpool' root hroot
    obtain ⟨blocks', hblocks', hroots'⟩ := ofPem_eq_ok_iff.mp hpool'
    obtain ⟨first, more, hfirst, rfl⟩ := Pem.exists_of_parse_append hblocks'
    obtain rfl := Except.ok.inj (hblocks.symm.trans hfirst)
    rw [rootsOf_append, ← hroots] at hroots'
    exact verify_of_roots_append hroots' hroot
  · intro front others hcomplete hothers
    exact hadd (Pem.parse_append hcomplete hothers hblocks) (List.subset_append_right others blocks)

end TrustPool

theorem Sample.isWritable_keyBlock : keyBlock.IsWritable := by decide

/-- The authority of the small chain twice, behind a certificate that cannot be read and a key. -/
def Sample.clutteredPieces : List Pem.Piece :=
  [.ofBlock ⟨Certificate.blockLabel, [0]⟩ Certificate.isWritable_block,
    .ofBlock keyBlock isWritable_keyBlock,
    .ofBlock ⟨Certificate.blockLabel, authority⟩ Certificate.isWritable_block,
    .ofBlock ⟨Certificate.blockLabel, authority⟩ Certificate.isWritable_block]

theorem Sample.rearranged_clutteredPieces (leaf : Certificate) (now : Instant) :
    TrustPool.Rearranged leaf now [⟨Certificate.blockLabel, authority⟩]
      (clutteredPieces.map Pem.Piece.block) := by
  have hunreadable : Certificate.ofDer [0] = .error (.parse .certificate) := by decide
  have hcopied := @TrustPool.Rearranged.inserted leaf now [] [⟨Certificate.blockLabel, authority⟩]
    ⟨Certificate.blockLabel, authority⟩ (.inl List.mem_cons_self)
  have hkey := @TrustPool.Rearranged.inserted leaf now []
    [⟨Certificate.blockLabel, authority⟩, ⟨Certificate.blockLabel, authority⟩] keyBlock
    (.inr (.otherKind (by decide)))
  have hbroken := @TrustPool.Rearranged.inserted leaf now []
    [keyBlock, ⟨Certificate.blockLabel, authority⟩, ⟨Certificate.blockLabel, authority⟩]
    ⟨Certificate.blockLabel, [0]⟩ (.inr (.unreadable hunreadable))
  exact hcopied.trans (hkey.trans hbroken)

theorem TrustPool.verify_of_bundle_sample : ∃ leaf root host pool pool' pool'',
    ofPem Sample.bundle = .ok pool ∧
    ofPem (Sample.clutteredPieces.flatMap Pem.Piece.text) = .ok pool' ∧
    ofPem (Sample.bundle ++ Sample.bundle) = .ok pool'' ∧
    pool.verify leaf host Sample.now = .ok root ∧ pool'.Accepts leaf host Sample.now ∧
    pool''.verify leaf host Sample.now = .ok root := by
  obtain ⟨leaf, root, hchain⟩ := Sample.verifyChain
  obtain ⟨-, -, pool, host, -, -, -, hpool, -, hverify, -⟩ :=
    TlsMaterial.verifyChain_eq_ok_iff.mp hchain
  have hbundle : Pem.parse Sample.bundle = .ok [⟨Certificate.blockLabel, Sample.authority⟩] :=
    Pem.parse_render Certificate.isWritable_block
  have hcomplete : Pem.IsComplete Sample.bundle :=
    Pem.isComplete_render Certificate.isWritable_block
  obtain ⟨blocks, hblocks, -, -, -, hother, happend, hfront⟩ :=
    verify_of_bundle leaf host Sample.now hpool
  obtain rfl := Except.ok.inj (hbundle.symm.trans hblocks)
  obtain ⟨hrearranged, -⟩ := hother _ _ (Pem.parse_pieces Sample.clutteredPieces)
  obtain ⟨pool', hpool', haccepts⟩ :=
    hrearranged (Sample.rearranged_clutteredPieces leaf Sample.now)
  obtain ⟨pool'', hpool'', -⟩ := hfront Sample.bundle _ hcomplete hbundle
  exact ⟨leaf, root, host, pool, pool', pool'', hpool, hpool', hpool'', hverify,
    haccepts.mpr ⟨root, hverify⟩, happend _ pool'' hpool'' root hverify⟩

end CertRotation
