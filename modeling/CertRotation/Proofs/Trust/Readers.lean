import CertRotation.Proofs.Trust.Bundles

namespace CertRotation

namespace Certificate

/-- A block is a certificate block and can be read. -/
structure IsReadAs (block : Pem.Block) (cert : Certificate) : Prop where
  label : block.label = blockLabel
  contents : ofDer block.contents = .ok cert

/-- Every certificate block can be read. -/
def AllReadable (blocks : List Pem.Block) : Prop :=
  ∀ block ∈ blocks, block.label = blockLabel → ∃ cert, IsReadAs block cert

/-- Certificates are those of the blocks: one for every block that can be read as one, in order. -/
inductive AreReadFrom : List Pem.Block → List Certificate → Prop
  | nil : AreReadFrom [] []
  | read {block : Pem.Block} {blocks : List Pem.Block} {cert : Certificate}
      {certs : List Certificate} (h : IsReadAs block cert) (rest : AreReadFrom blocks certs) :
      AreReadFrom (block :: blocks) (cert :: certs)
  | passedOver {block : Pem.Block} {blocks : List Pem.Block} {certs : List Certificate}
      (h : ∀ cert, ¬IsReadAs block cert) (rest : AreReadFrom blocks certs) :
      AreReadFrom (block :: blocks) certs

variable {block : Pem.Block} {blocks : List Pem.Block} {cert other : Certificate}
  {certs : List Certificate} {text : Octets}

theorem IsReadAs.unique (h : IsReadAs block cert) (h' : IsReadAs block other) : cert = other :=
  Except.ok.inj (h.contents.symm.trans h'.contents)

theorem areReadFrom_nil_iff : AreReadFrom [] certs ↔ certs = [] := by
  constructor
  · rintro ⟨⟩
    rfl
  · rintro rfl
    exact .nil

theorem areReadFrom_cons_iff_of_isReadAs (h : IsReadAs block cert) :
    AreReadFrom (block :: blocks) certs ↔
      ∃ rest, certs = cert :: rest ∧ AreReadFrom blocks rest := by
  constructor
  · intro hcerts
    cases hcerts with
    | read hother hrest => exact ⟨_, by rw [h.unique hother], hrest⟩
    | passedOver hnone _ => exact absurd h (hnone cert)
  · rintro ⟨rest, rfl, hrest⟩
    exact .read h hrest

theorem areReadFrom_cons_iff_of_not (h : ∀ cert, ¬IsReadAs block cert) :
    AreReadFrom (block :: blocks) certs ↔ AreReadFrom blocks certs := by
  constructor
  · intro hcerts
    cases hcerts with
    | read hcert _ => exact absurd hcert (h _)
    | passedOver _ hrest => exact hrest
  · exact .passedOver h

theorem allReadable_cons_iff : AllReadable (block :: blocks) ↔
    (block.label = blockLabel → ∃ cert, IsReadAs block cert) ∧ AllReadable blocks :=
  List.forall_mem_cons

theorem mapM_ofDer_eq_ok_iff :
    (blocks.filter (·.label == blockLabel)).mapM (fun block => ofDer block.contents) =
        .ok certs ↔
      AreReadFrom blocks certs ∧ AllReadable blocks := by
  induction blocks generalizing certs with
  | nil => simp [areReadFrom_nil_iff, AllReadable, @eq_comm _ [] certs]
  | cons block blocks ih =>
      rw [allReadable_cons_iff]
      by_cases hlabel : block.label = blockLabel
      · rw [List.filter_cons_of_pos (by simp [hlabel]), List.mapM_cons]
        cases hder : ofDer block.contents with
        | error failure =>
            -- One side fails at this block, the other has it as a block that cannot be read.
            have hnone : ∀ cert, ¬IsReadAs block cert := by
              rintro cert ⟨-, hcert⟩
              rw [hder] at hcert
              cases hcert
            simp [hlabel, hnone]
        | ok cert =>
            have hread : IsReadAs block cert := ⟨hlabel, hder⟩
            simp only [ok_bind, bind_eq_ok_iff, pure_eq_ok_iff, ih,
              areReadFrom_cons_iff_of_isReadAs hread]
            constructor
            · rintro ⟨rest, ⟨hrest, hall⟩, rfl⟩
              exact ⟨⟨rest, rfl, hrest⟩, fun _ => ⟨cert, hread⟩, hall⟩
            · rintro ⟨⟨rest, rfl, hrest⟩, -, hall⟩
              exact ⟨rest, ⟨hrest, hall⟩, rfl⟩
      · have hnone : ∀ cert, ¬IsReadAs block cert := fun cert hcert => hlabel hcert.label
        rw [List.filter_cons_of_neg (by simp [hlabel]), ih, areReadFrom_cons_iff_of_not hnone]
        simp [hlabel]

theorem decodePem_eq_ok_iff : decodePem text = .ok certs ↔
    ∃ blocks, Pem.parse text = .ok blocks ∧ certs ≠ [] ∧ AreReadFrom blocks certs ∧
      AllReadable blocks := by
  cases hparse : Pem.parse text with
  | error fault => simp [decodePem, hparse]
  | ok blocks =>
      simp only [decodePem, hparse, bind_eq_ok_iff, mapM_ofDer_eq_ok_iff, List.isEmpty_iff,
        guard_bind_eq_ok_iff, pure_eq_ok_iff, Except.ok.injEq, exists_eq_left']
      constructor
      · rintro ⟨read, hread, hne, rfl⟩
        exact ⟨hne, hread⟩
      · rintro ⟨hne, hread⟩
        exact ⟨certs, hread, hne, rfl⟩

end Certificate

namespace TrustPool

open Certificate

variable {block : Pem.Block} {blocks : List Pem.Block} {cert : Certificate}
  {certs : List Certificate} {pool : TrustPool} {text : Octets}

theorem rootsOf_cons_of_isReadAs (h : IsReadAs block cert) :
    rootsOf (block :: blocks) = cert :: rootsOf blocks := by
  rw [rootsOf, List.filter_cons_of_pos (by simp [h.label]), List.filterMap_cons, h.contents]
  rfl

theorem rootsOf_cons_of_not (h : ∀ cert, ¬IsReadAs block cert) :
    rootsOf (block :: blocks) = rootsOf blocks := by
  by_cases hlabel : block.label = blockLabel
  · cases hder : ofDer block.contents with
    | error failure =>
        rw [rootsOf, List.filter_cons_of_pos (by simp [hlabel]), List.filterMap_cons, hder]
        rfl
    | ok cert => exact absurd ⟨hlabel, hder⟩ (h cert)
  · rw [rootsOf, List.filter_cons_of_neg (by simp [hlabel])]
    rfl

theorem areReadFrom_iff : AreReadFrom blocks certs ↔ certs = rootsOf blocks := by
  induction blocks generalizing certs with
  | nil => exact areReadFrom_nil_iff
  | cons block blocks ih =>
      by_cases hread : ∃ cert, IsReadAs block cert
      · obtain ⟨cert, hcert⟩ := hread
        simp only [areReadFrom_cons_iff_of_isReadAs hcert, rootsOf_cons_of_isReadAs hcert, ih,
          exists_eq_right]
      · rw [not_exists] at hread
        rw [areReadFrom_cons_iff_of_not hread, rootsOf_cons_of_not hread, ih]

theorem ofPem_eq_ok_iff_areReadFrom : ofPem text = .ok pool ↔
    ∃ blocks, Pem.parse text = .ok blocks ∧ AreReadFrom blocks pool.roots := by
  simp only [ofPem_eq_ok_iff, areReadFrom_iff]

theorem exists_ofPem_iff : (∃ pool, ofPem text = .ok pool) ↔
    ∃ blocks, Pem.parse text = .ok blocks ∧ ∃ block ∈ blocks, ∃ cert, IsReadAs block cert := by
  constructor
  · rintro ⟨pool, hpool⟩
    obtain ⟨blocks, hparse, hroots⟩ := ofPem_eq_ok_iff.mp hpool
    obtain ⟨root, hroot⟩ := List.exists_mem_of_ne_nil _ pool.roots_ne_nil
    rw [hroots] at hroot
    obtain ⟨block, hmem, hlabel, hder⟩ := mem_rootsOf_iff.mp hroot
    exact ⟨blocks, hparse, block, hmem, root, hlabel, hder⟩
  · rintro ⟨blocks, hparse, block, hmem, cert, hlabel, hder⟩
    obtain ⟨pool, hpool, -⟩ :=
      exists_ofPem hparse (mem_rootsOf_iff.mpr ⟨block, hmem, hlabel, hder⟩)
    exact ⟨pool, hpool⟩

/-- A file is read if its bundle is accepted and every certificate block in it can be read, and
then its certificates are the roots of the bundle. The bundle is accepted if the text is well formed
and one certificate block can be read; its roots are what can be read, each block once and in
order. -/
theorem decodePem_iff_ofPem (text : Octets) :
    (∀ certs, decodePem text = .ok certs ↔
      (∃ pool, ofPem text = .ok pool ∧ pool.roots = certs) ∧
        ∃ blocks, Pem.parse text = .ok blocks ∧ AllReadable blocks) ∧
    ((∃ pool, ofPem text = .ok pool) ↔
      ∃ blocks, Pem.parse text = .ok blocks ∧
        ∃ block ∈ blocks, ∃ cert, IsReadAs block cert) ∧
    ∀ pool, ofPem text = .ok pool ↔
      ∃ blocks, Pem.parse text = .ok blocks ∧ AreReadFrom blocks pool.roots := by
  refine ⟨?_, exists_ofPem_iff, fun _ => ofPem_eq_ok_iff_areReadFrom⟩
  intro certs
  simp only [decodePem_eq_ok_iff, ofPem_eq_ok_iff_areReadFrom]
  constructor
  · rintro ⟨blocks, hparse, hne, hcerts, hall⟩
    exact ⟨⟨⟨certs, hne⟩, ⟨blocks, hparse, hcerts⟩, rfl⟩, blocks, hparse, hall⟩
  · rintro ⟨⟨pool, ⟨blocks, hparse, hroots⟩, rfl⟩, blocks', hparse', hall⟩
    obtain rfl := Except.ok.inj (hparse.symm.trans hparse')
    exact ⟨blocks, hparse, pool.roots_ne_nil, hroots, hall⟩

end TrustPool

end CertRotation
