import CertRotation.Octets
import Mathlib.Algebra.Group.Nat.Defs

namespace CertRotation.Octets

@[simp] theorem value_nil : value [] = 0 := rfl

theorem foldl_value (start : Nat) (bytes : Octets) :
    bytes.foldl (fun acc byte => acc * 256 + byte.toNat) start =
      start * 256 ^ bytes.length + value bytes := by
  induction bytes generalizing start with
  | nil => simp
  | cons byte rest ih =>
      have hvalue : value (byte :: rest) = byte.toNat * 256 ^ rest.length + value rest := by
        change List.foldl _ (0 * 256 + byte.toNat) rest = _
        rw [ih, Nat.zero_mul, Nat.zero_add]
      rw [List.foldl_cons, ih, hvalue, List.length_cons, Nat.pow_succ, Nat.add_mul, Nat.mul_assoc,
        Nat.mul_comm 256, Nat.add_assoc]

theorem value_cons (byte : UInt8) (rest : Octets) :
    value (byte :: rest) = byte.toNat * 256 ^ rest.length + value rest := by
  rw [value, List.foldl_cons, foldl_value, Nat.zero_mul, Nat.zero_add]

@[simp] theorem length_ofNat (width n : Nat) : (ofNat width n).length = width := by
  induction width with
  | zero => rfl
  | succ width ih => simp [ofNat, ih]

theorem value_ofNat (width n : Nat) : value (ofNat width n) = n % 256 ^ width := by
  induction width with
  | zero => simp [ofNat, Nat.mod_one]
  | succ width ih =>
      have hfirst : (UInt8.ofNat (n / 256 ^ width)).toNat = n / 256 ^ width % 256 := by
        simp
      rw [ofNat, value_cons, length_ofNat, ih]
      change (UInt8.ofNat (n / 256 ^ width)).toNat * 256 ^ width + _ = _
      rw [hfirst, Nat.pow_succ, Nat.mod_mul, Nat.add_comm, Nat.mul_comm]

theorem lt_pow_width (n : Nat) : n < 256 ^ width n := by
  unfold width
  split
  · omega
  · rename_i hn
    have hbits : n < 2 ^ (n.log2 + 1) := Nat.lt_log2_self
    have hoctets : (256 : Nat) ^ (n.log2 / 8 + 1) = 2 ^ (8 * (n.log2 / 8 + 1)) := by
      rw [Nat.pow_mul]
    rw [hoctets]
    exact Nat.lt_of_lt_of_le hbits (Nat.pow_le_pow_right (by omega) (by omega))

@[simp] theorem value_minimal (n : Nat) : value (minimal n) = n := by
  rw [minimal, value_ofNat, Nat.mod_eq_of_lt (lt_pow_width n)]

theorem minimal_eq_minimal_iff {m n : Nat} : minimal m = minimal n ↔ m = n := by
  constructor
  · intro h
    have hvalue := congrArg value h
    rwa [value_minimal, value_minimal] at hvalue
  · exact congrArg minimal

@[simp] theorem length_minimal (n : Nat) : (minimal n).length = width n := length_ofNat _ n

theorem width_le_of_lt_pow {n count : Nat} (h : n < 256 ^ count) : width n ≤ count := by
  unfold width
  split
  · omega
  · rename_i hn
    have hbits : n.log2 < 8 * count := by
      rw [Nat.log2_lt hn, Nat.pow_mul]
      exact h
    omega

theorem width_mono {m n : Nat} (h : m ≤ n) : width m ≤ width n :=
  width_le_of_lt_pow (Nat.lt_of_le_of_lt h (lt_pow_width n))

theorem width_pos {n : Nat} (h : 0 < n) : 0 < width n := by
  unfold width
  split
  · omega
  · omega

theorem value_lt (bytes : Octets) : value bytes < 256 ^ bytes.length := by
  induction bytes with
  | nil => simp
  | cons byte rest ih =>
      have hbyte : byte.toNat + 1 ≤ 256 := byte.toNat_lt
      have hmul := Nat.mul_le_mul_right (256 ^ rest.length) hbyte
      rw [Nat.succ_mul] at hmul
      rw [value_cons, List.length_cons, Nat.pow_succ, Nat.mul_comm (256 ^ rest.length)]
      omega

theorem eq_of_value_eq {a b : Octets} (hlength : a.length = b.length) (h : value a = value b) :
    a = b := by
  induction a generalizing b with
  | nil => exact (List.length_eq_zero_iff.mp hlength.symm).symm
  | cons byte rest ih =>
      cases b with
      | nil => cases hlength
      | cons byte' rest' =>
          have hlen : rest.length = rest'.length := Nat.succ.inj hlength
          rw [value_cons, value_cons, ← hlen] at h
          have hlt := value_lt rest
          have hlt' : value rest' < 256 ^ rest.length := hlen ▸ value_lt rest'
          have hpos : 0 < 256 ^ rest.length := Nat.pow_pos (by decide)
          have hfirst : byte.toNat = byte'.toNat := by
            have hdiv := congrArg (· / 256 ^ rest.length) h
            rw [Nat.add_comm, Nat.add_comm (byte'.toNat * _)] at hdiv
            simpa only [Nat.add_mul_div_right _ _ hpos, Nat.div_eq_of_lt hlt,
              Nat.div_eq_of_lt hlt', Nat.zero_add] using hdiv
          rw [hfirst, Nat.add_left_cancel_iff] at h
          rw [UInt8.toNat_inj.mp hfirst, ih hlen h]

theorem value_stripZeros (bytes : Octets) : value (stripZeros bytes) = value bytes := by
  induction bytes with
  | nil => rfl
  | cons byte rest ih =>
      by_cases hzero : byte = 0
      · subst hzero
        have hskip : stripZeros (0 :: rest) = stripZeros rest := rfl
        rw [hskip, ih, value_cons]
        simp
      · have hkeep : stripZeros (byte :: rest) = byte :: rest := by
          simp [stripZeros, hzero]
        rw [hkeep]

theorem head?_stripZeros_ne (bytes : Octets) : (stripZeros bytes).head? ≠ some 0 := by
  have hhead := List.head?_dropWhile_not (· == 0) bytes
  rw [← stripZeros] at hhead
  intro hzero
  rw [hzero] at hhead
  cases hhead

theorem stripZeros_eq_minimal (bytes : Octets) : stripZeros bytes = minimal (value bytes) := by
  rw [← value_stripZeros]
  cases hstripped : stripZeros bytes with
  | nil => rfl
  | cons first rest =>
      have hfirst : 0 < first.toNat := by
        refine Nat.pos_of_ne_zero fun hzero => head?_stripZeros_ne bytes ?_
        have heq : first = 0 := UInt8.toNat_inj.mp hzero
        rw [hstripped, List.head?_cons, heq]
      have hlow : 256 ^ rest.length ≤ value (first :: rest) := by
        rw [value_cons]
        exact Nat.le_trans (Nat.le_mul_of_pos_left _ hfirst) (Nat.le_add_right _ _)
      have hwidth : width (value (first :: rest)) = rest.length + 1 := by
        apply Nat.le_antisymm (width_le_of_lt_pow (value_lt (first :: rest)))
        have hpow := Nat.lt_of_le_of_lt hlow (lt_pow_width _)
        exact (Nat.pow_lt_pow_iff_right (by decide)).mp hpow
      apply eq_of_value_eq
      · rw [length_minimal, hwidth, List.length_cons]
      · rw [value_minimal]

theorem toNat_foldl_shift {bytes : Octets} {start : UInt64}
    (h : start.toNat * 256 ^ bytes.length + value bytes < 2 ^ 64) :
    (bytes.foldl (fun (acc : UInt64) (byte : UInt8) => (acc <<< 8) ||| byte.toUInt64) start).toNat =
      start.toNat * 256 ^ bytes.length + value bytes := by
  induction bytes generalizing start with
  | nil => simp
  | cons byte rest ih =>
      rw [value_cons, List.length_cons, Nat.pow_succ'] at h
      have hbyte : byte.toNat < 2 ^ 8 := byte.toNat_lt
      have hone : 1 ≤ 256 ^ rest.length := Nat.one_le_pow _ _ (by decide)
      -- Nothing is shifted out while octets are still to come.
      have hstart : start.toNat * 256 < 2 ^ 64 := by
        calc
          start.toNat * 256 ≤ start.toNat * (256 * 256 ^ rest.length) :=
            Nat.mul_le_mul_left _ (Nat.le_mul_of_pos_right _ hone)
          _ < 2 ^ 64 := by omega
      have hshift : ((start <<< 8) ||| byte.toUInt64).toNat = start.toNat * 256 + byte.toNat := by
        have height : (8 : UInt64).toNat % 64 = 8 := by decide
        rw [UInt64.toNat_or, UInt64.toNat_shiftLeft, height, UInt8.toNat_toUInt64, Nat.shiftLeft_eq,
          Nat.mod_eq_of_lt (by omega), ← Nat.shiftLeft_eq _ 8,
          ← Nat.shiftLeft_add_eq_or_of_lt hbyte, Nat.shiftLeft_eq]
      have hsum : (start.toNat * 256 + byte.toNat) * 256 ^ rest.length + value rest =
          start.toNat * (256 * 256 ^ rest.length) +
            (byte.toNat * 256 ^ rest.length + value rest) := by
        rw [Nat.add_mul, Nat.mul_assoc, Nat.add_assoc]
      rw [List.foldl_cons, ih (by rw [hshift, hsum]; exact h), hshift, hsum, value_cons,
        List.length_cons, Nat.pow_succ']

end CertRotation.Octets
