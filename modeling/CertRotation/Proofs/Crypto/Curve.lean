import CertRotation.Crypto.P256
import CertRotation.Proofs.Asn1.StrictReads

namespace CertRotation

open Asn1

namespace Curve

variable {curve : Curve} {point other : Point}

variable (curve) in
def IsInField (point : Point) : Prop := point.x < curve.fieldPrime ∧ point.y < curve.fieldPrime

theorem isInField_of_isOnCurve (h : curve.isOnCurve point = true) : curve.IsInField point := by
  simp only [isOnCurve, Bool.and_eq_true, decide_eq_true_eq] at h
  exact h.1

theorem mul_lt (a b : Nat) : curve.mul a b < curve.fieldPrime := Nat.mod_lt _ curve.fieldPrime_pos

theorem toPoint?_isInField {p : Jacobian} (h : curve.toPoint? p = some point) :
    curve.IsInField point := by
  unfold toPoint? at h
  split at h
  · cases h
  · obtain ⟨inverse, -, hpoint⟩ := Option.bind_eq_some_iff.mp h
    obtain rfl := Option.some.inj hpoint
    exact ⟨mul_lt _ _, mul_lt _ _⟩

theorem value_ofNat_scalarOctets {a : Nat} (h : a < curve.fieldPrime) :
    Octets.value (Octets.ofNat curve.scalarOctets a) = a := by
  rw [Octets.value_ofNat]
  exact Nat.mod_eq_of_lt (Nat.lt_trans h curve.fieldPrime_lt)

theorem length_encodePoint_le (point : Option Point) :
    (curve.encodePoint point).length ≤ 1 + 2 * curve.scalarOctets := by
  cases point with
  | none => simp [encodePoint]
  | some point =>
      simp only [encodePoint, List.length_cons, List.length_append, Octets.length_ofNat]
      omega

theorem encodePoint_inj (hpoint : curve.IsInField point) (hother : curve.IsInField other)
    (h : curve.encodePoint (some point) = curve.encodePoint (some other)) : point = other := by
  obtain ⟨hx, hy⟩ := List.append_inj (List.cons.inj h).2
    ((Octets.length_ofNat _ _).trans (Octets.length_ofNat _ _).symm)
  obtain ⟨x, y⟩ := point
  obtain ⟨x', y'⟩ := other
  have hvalue := congrArg Octets.value hx
  have hvalue' := congrArg Octets.value hy
  rw [value_ofNat_scalarOctets hpoint.1, value_ofNat_scalarOctets hother.1] at hvalue
  rw [value_ofNat_scalarOctets hpoint.2, value_ofNat_scalarOctets hother.2] at hvalue'
  exact congrArg₂ Point.mk hvalue hvalue'

theorem decodePoint?_encodePoint (h : curve.isOnCurve point = true) :
    curve.decodePoint? (curve.encodePoint (some point)) = some point := by
  obtain ⟨hx, hy⟩ := isInField_of_isOnCurve h
  have hwidth := Octets.length_ofNat curve.scalarOctets point.x
  have htake := @List.take_left' _ _ (Octets.ofNat curve.scalarOctets point.y) _ hwidth
  have hdrop := @List.drop_left' _ _ (Octets.ofNat curve.scalarOctets point.y) _ hwidth
  have hlength : (Octets.ofNat curve.scalarOctets point.x ++
      Octets.ofNat curve.scalarOctets point.y).length = 2 * curve.scalarOctets := by
    rw [List.length_append, Octets.length_ofNat, Octets.length_ofNat]
    omega
  simp only [encodePoint, decodePoint?, htake, hdrop, hlength, value_ofNat_scalarOctets hx,
    value_ofNat_scalarOctets hy, h, and_self, if_true]

variable (curve) in
/-- Whether the two numbers of a signature are in range. -/
def IsInRange (signature : Signature) : Prop :=
  0 < signature.r ∧ signature.r < curve.order ∧ 0 < signature.s ∧ signature.s < curve.order

end Curve

namespace P256

open Curve (p256)

theorem signWith?_isInRange {key : SecretKey} {z k : Nat} {signature : Curve.Signature}
    (h : signWith? key z k = some signature) : p256.IsInRange signature := by
  obtain ⟨point, -, h⟩ := Option.bind_eq_some_iff.mp h
  obtain ⟨inverse, -, h⟩ := Option.bind_eq_some_iff.mp h
  simp only at h
  split at h
  · cases h
  · rename_i hzero
    obtain rfl := Option.some.inj h
    rw [not_or] at hzero
    exact ⟨Nat.pos_of_ne_zero hzero.1, Nat.mod_lt _ p256.order_pos, Nat.pos_of_ne_zero hzero.2,
      Nat.mod_lt _ p256.order_pos⟩

theorem signFrom_cases (key : SecretKey) (z budget : Nat) (secret state : Octets) :
    signFrom key z budget secret state = ⟨0, 0⟩ ∨
      p256.IsInRange (signFrom key z budget secret state) := by
  induction budget generalizing secret state with
  | zero => exact .inl rfl
  | succ budget ih =>
      rw [signFrom]
      simp only
      split
      · rename_i signature hsome
        split at hsome
        · exact .inr (signWith?_isInRange hsome)
        · cases hsome
      · exact ih _ _

theorem not_verify_zero (point : Curve.Point) (digest : Octets) :
    p256.verify point digest ⟨0, 0⟩ = false := by
  have hinverse : Modular.inverse? 0 p256.order = none := by decide +kernel
  simp [Curve.verify, hinverse]

/-- A signature that holds is in range; the one that is given up on is not. -/
theorem sign_isInRange {key : SecretKey} {message digest : Octets} {point : Curve.Point}
    (h : p256.verify point digest (sign key message) = true) :
    p256.IsInRange (sign key message) := by
  rw [sign] at h ⊢
  rcases signFrom_cases key (p256.digestNumber (Digest.sha256 message)) signBudget _ _ with
    hzero | hrange
  · rw [hzero, not_verify_zero] at h
    cases h
  · exact hrange

theorem decodeSignature?_encode {signature : Curve.Signature} (h : p256.IsInRange signature) :
    p256.decodeSignature? signature.encode = some signature := by
  obtain ⟨hr, hr', hs, hs'⟩ := h
  have hwidth := Octets.width_le_of_lt_pow (Nat.lt_trans hr' p256.order_lt)
  have hwidth' := Octets.width_le_of_lt_pow (Nat.lt_trans hs' p256.order_lt)
  have hoctets : p256.scalarOctets = 32 := rfl
  have hlength := @Strict.length_natural_le signature.r (by omega)
  have hlength' := @Strict.length_natural_le signature.s (by omega)
  have hlimit := Strict.lengthLimit_eq
  have hread := @Strict.reads_natural_of_width signature.r (by omega)
  have hread' := @Strict.reads_natural_of_width signature.s (by omega)
  have hsequence : Reads (Strict.sequence do
      let r ← Strict.natural
      let s ← Strict.natural
      return Curve.Signature.mk r s) signature.encode signature := by
    apply Strict.reads_sequence
    · simp only [List.flatten_cons, List.flatten_nil, List.length_append, List.length_nil]
      omega
    · exact Strict.whole_eq (hread.bind (hread'.bind (.pure signature)))
  rw [Curve.decodeSignature?, hsequence.apply_self]
  simp [hr, hr', hs, hs']

theorem SecretKey.publicOctets_eq_iff {key other : SecretKey} :
    key.publicOctets = other.publicOctets ↔ key.publicPoint = other.publicPoint := by
  constructor
  · intro h
    cases hpoint : key.publicPoint with
    | none =>
        cases hother : other.publicPoint with
        | none => rfl
        | some point => simp [publicOctets, hpoint, hother, Curve.encodePoint] at h
    | some point =>
        cases hother : other.publicPoint with
        | none => simp [publicOctets, hpoint, hother, Curve.encodePoint] at h
        | some point' =>
            rw [publicOctets, publicOctets, hpoint, hother] at h
            exact congrArg some
              (Curve.encodePoint_inj (Curve.toPoint?_isInField hpoint)
                (Curve.toPoint?_isInField hother) h)
  · intro h
    rw [publicOctets, publicOctets, h]

end P256

end CertRotation
