import CertRotation.Proofs.Pem.Append
import CertRotation.Proofs.PrivateKey.Containers
import CertRotation.Proofs.Trust.Chain
import Mathlib.Data.List.Forall2

namespace CertRotation

namespace Pem

/-- A text that is read as one block and leaves nothing over. It may have header lines, line ends
of any kind, and a preamble. -/
structure Piece where
  text : Octets
  block : Block
  isComplete : IsComplete text
  parse_text : parse text = .ok [block]

def Piece.ofBlock (block : Block) (h : block.IsWritable) : Piece where
  text := Utf8.encode (render block)
  block := block
  isComplete := isComplete_render h
  parse_text := parse_render h

theorem parse_pieces (pieces : List Piece) :
    parse (pieces.flatMap Piece.text) = .ok (pieces.map Piece.block) := by
  induction pieces with
  | nil => exact parse_nil
  | cons piece pieces ih =>
      rw [List.flatMap_cons, List.map_cons]
      exact parse_append piece.isComplete piece.parse_text ih

end Pem

namespace PrivateKey

theorem exists_ofBlock?_of_mem {block : Pem.Block} (h : block.label ∈ keyLabels) :
    ∃ result, ofBlock? block = some result := by
  simp only [keyLabels, List.mem_cons, List.not_mem_nil, or_false] at h
  unfold ofBlock?
  split
  · exact ⟨_, rfl⟩
  · rename_i hsec1
    split
    · exact ⟨_, rfl⟩
    · rename_i hpkcs1
      rw [if_pos ((h.resolve_left hsec1).resolve_left hpkcs1)]
      exact ⟨_, rfl⟩

theorem decodePem_pieces {before after : List Pem.Piece} {piece : Pem.Piece}
    (hbefore : ∀ other ∈ before, other.block.label ∉ keyLabels)
    (hlabel : piece.block.label ∈ keyLabels) :
    decodePem ((before ++ piece :: after).flatMap Pem.Piece.text) = decodePem piece.text ∧
      ofBlock? piece.block = some (decodePem piece.text) := by
  obtain ⟨result, hresult⟩ := exists_ofBlock?_of_mem hlabel
  have halone : decodePem piece.text = result :=
    @decodePem_of_parse _ [] [] _ _ piece.parse_text (by simp) hresult
  have hfile : decodePem ((before ++ piece :: after).flatMap Pem.Piece.text) = result := by
    refine @decodePem_of_parse _ (before.map Pem.Piece.block) (after.map Pem.Piece.block) _ _
      ?_ ?_ hresult
    · rw [Pem.parse_pieces, List.map_append, List.map_cons]
    · intro block hblock
      obtain ⟨other, hother, rfl⟩ := List.mem_map.mp hblock
      exact hbefore other hother
  rw [hfile, halone]
  exact ⟨rfl, hresult⟩

end PrivateKey

namespace Certificate

variable {certs read : List Certificate}

/-- The records that reading the octets of certificates gives, one for each and in order. -/
def ReadAs (certs read : List Certificate) : Prop :=
  List.Forall₂ (fun cert record => ofDer cert.der = .ok record ∧ record.der = cert.der) certs read

theorem exists_readAs (h : ∀ cert ∈ certs, ∃ record, ofDer cert.der = .ok record) :
    ∃ read, ReadAs certs read := by
  induction certs with
  | nil => exact ⟨[], .nil⟩
  | cons cert certs ih =>
      obtain ⟨record, hrecord⟩ := h cert (by simp)
      obtain ⟨read, hread⟩ := ih fun cert hcert => h cert (by simp [hcert])
      exact ⟨record :: read, .cons ⟨hrecord, (ofDer_eq_ok hrecord).1⟩ hread⟩

theorem ReadAs.eq (h : ReadAs certs read) (hcerts : ∀ cert ∈ certs, ofDer cert.der = .ok cert) :
    read = certs := by
  induction h with
  | nil => rfl
  | cons hread _ ih =>
      have hsame := hread.1
      rw [hcerts _ (by simp)] at hsame
      rw [← Except.ok.inj hsame, ih fun cert hcert => hcerts cert (by simp [hcert])]

def block (cert : Certificate) : Pem.Block := ⟨blockLabel, cert.der⟩

theorem ReadAs.mapM_eq (h : ReadAs certs read) :
    (certs.map block).mapM (fun block => ofDer block.contents) = .ok read := by
  induction h with
  | nil => rfl
  | cons hread _ ih =>
      rw [List.map_cons, List.mapM_cons, ih, block, hread.1]
      rfl

theorem ReadAs.decodePem_eq (h : ReadAs certs read) (hcerts : certs ≠ []) {text : Octets}
    {blocks : List Pem.Block} (hparse : Pem.parse text = .ok blocks)
    (hblocks : blocks.filter (·.label == blockLabel) = certs.map block) :
    decodePem text = .ok read := by
  have hread : read.isEmpty = false := by
    cases h with
    | nil => exact absurd rfl hcerts
    | cons _ _ => rfl
  simp only [decodePem, hparse, hblocks, h.mapM_eq, ok_bind, hread]
  rfl

theorem parse_pemOfList (certs : List Certificate) :
    Pem.parse (Utf8.encode (pemOfList certs)) = .ok (certs.map block) := by
  have htext : Utf8.encode (pemOfList certs) =
      (certs.map block).flatMap fun block => Utf8.encode (Pem.render block) := by
    induction certs with
    | nil => decide
    | cons cert certs ih =>
        rw [pemOfList] at ih
        rw [pemOfList, List.map_cons, String.join_cons, Utf8.encode_append, ih]
        rfl
  rw [htext]
  apply Pem.parse_flatMap_render
  intro block hblock
  obtain ⟨cert, -, rfl⟩ := List.mem_map.mp hblock
  exact isWritable_block

/-- A file of certificates is read as those certificates, alone and among blocks of other kinds,
and the key of such a file is that of its first block with a key. -/
theorem decodePem_of_interleaved (hcerts : certs ≠ [])
    (h : ∀ cert ∈ certs, ∃ record, ofDer cert.der = .ok record) :
    ∃ read, ReadAs certs read ∧ decodePem (Utf8.encode (pemOfList certs)) = .ok read ∧
      ∀ pieces : List Pem.Piece,
        (pieces.map Pem.Piece.block).filter (·.label == blockLabel) = certs.map block →
          decodePem (pieces.flatMap Pem.Piece.text) = .ok read ∧
          ∀ before piece after, pieces = before ++ piece :: after →
            (∀ other ∈ before, other.block.label ∉ PrivateKey.keyLabels) →
            piece.block.label ∈ PrivateKey.keyLabels →
              PrivateKey.decodePem (pieces.flatMap Pem.Piece.text) =
                  PrivateKey.decodePem piece.text ∧
                PrivateKey.ofBlock? piece.block = some (PrivateKey.decodePem piece.text) := by
  obtain ⟨read, hread⟩ := exists_readAs h
  refine ⟨read, hread, ?_, ?_⟩
  · apply hread.decodePem_eq hcerts (parse_pemOfList certs)
    rw [List.filter_eq_self]
    intro other hother
    obtain ⟨cert, -, rfl⟩ := List.mem_map.mp hother
    rfl
  · intro pieces hpieces
    constructor
    · exact hread.decodePem_eq hcerts (Pem.parse_pieces pieces) hpieces
    · rintro before piece after rfl hbefore hlabel
      exact PrivateKey.decodePem_pieces hbefore hlabel

end Certificate

/-! The two certificates of the small chain, among a block of parameters and a key. -/

namespace Sample

def keyBlock : Pem.Block := ⟨PrivateKey.pkcs1Label, key⟩

def pieces : List Pem.Piece :=
  [.ofBlock ⟨Certificate.blockLabel, leaf⟩ (by decide),
    .ofBlock ⟨"EC PARAMETERS", [6, 1, 42]⟩ (by decide), .ofBlock keyBlock (by decide),
    .ofBlock ⟨Certificate.blockLabel, authority⟩ (by decide)]

theorem exists_ofDer : ∃ served trusted, Certificate.ofDer leaf = .ok served ∧
    Certificate.ofDer authority = .ok trusted := by
  obtain ⟨served, hserved⟩ := @exists_ok_of_toBool _ _ (Certificate.ofDer leaf) (by decide +kernel)
  obtain ⟨trusted, htrusted⟩ :=
    @exists_ok_of_toBool _ _ (Certificate.ofDer authority) (by decide +kernel)
  exact ⟨served, trusted, hserved, htrusted⟩

theorem exists_ofBlock? : ∃ key, PrivateKey.ofBlock? keyBlock = some (.ok key) := by
  have hread : (PrivateKey.ofBlock? keyBlock).any Except.toBool = true := by decide +kernel
  obtain ⟨result, hblock, hresult⟩ := (Option.any_eq_true _ _).mp hread
  obtain ⟨key, rfl⟩ := exists_ok_of_toBool hresult
  exact ⟨key, hblock⟩

end Sample

theorem Certificate.decodePem_of_interleaved_sample :
    ∃ served trusted key, ofDer Sample.leaf = .ok served ∧ ofDer Sample.authority = .ok trusted ∧
      decodePem (Utf8.encode (pemOfList [served, trusted])) = .ok [served, trusted] ∧
      decodePem (Sample.pieces.flatMap Pem.Piece.text) = .ok [served, trusted] ∧
      PrivateKey.decodePem (Sample.pieces.flatMap Pem.Piece.text) = .ok key := by
  obtain ⟨served, trusted, hserved, htrusted⟩ := Sample.exists_ofDer
  have hcerts : ∀ cert ∈ [served, trusted], ofDer cert.der = .ok cert := by
    simp [ofDer_der hserved, ofDer_der htrusted]
  obtain ⟨read, hread, hown, hpieces⟩ := @decodePem_of_interleaved [served, trusted] (by simp)
    fun cert hcert => ⟨cert, hcerts cert hcert⟩
  obtain rfl := hread.eq hcerts
  have hblocks : (Sample.pieces.map Pem.Piece.block).filter (·.label == blockLabel) =
      [served, trusted].map block := by
    simp only [List.map_cons, List.map_nil, block, (ofDer_eq_ok hserved).1,
      (ofDer_eq_ok htrusted).1]
    rfl
  obtain ⟨hfile, hkey⟩ := hpieces Sample.pieces hblocks
  obtain ⟨hfirst, hblock⟩ := hkey (Sample.pieces.take 2) (.ofBlock Sample.keyBlock (by decide))
    (Sample.pieces.drop 3) rfl (by decide) (by decide)
  obtain ⟨key, hreadable⟩ := Sample.exists_ofBlock?
  have hresult := Option.some.inj (hblock.symm.trans hreadable)
  exact ⟨served, trusted, key, hserved, htrusted, hown, hfile, hfirst.trans hresult⟩

end CertRotation
