import CertRotation.Crypto.Rsa
import CertRotation.Proofs.Octets
import Mathlib.FieldTheory.Finite.Basic
import Mathlib.NumberTheory.LucasPrimality
import Mathlib.Tactic.NormNum.Prime

namespace CertRotation

namespace Modular

theorem power_eq (base exponent modulus : Nat) :
    power base exponent modulus = base ^ exponent % modulus := by
  have hsquare : ∀ base half : Nat, (base * base % modulus) ^ half % modulus =
      base ^ (2 * half) % modulus := by
    intro base half
    rw [← Nat.pow_mod, Nat.pow_mul, Nat.pow_two]
  fun_induction power base exponent modulus with
  | case1 base => rw [Nat.pow_zero]
  | case2 base exponent hpos rest hodd ih =>
      have hrest : rest = base ^ (2 * (exponent / 2)) % modulus := ih.trans (hsquare _ _)
      have hexponent : 2 * (exponent / 2) + 1 = exponent := by omega
      rw [hrest, Nat.mod_mul_mod, ← Nat.pow_succ, Nat.succ_eq_add_one, hexponent]
  | case3 base exponent hpos rest heven ih =>
      have hrest : rest = base ^ (2 * (exponent / 2)) % modulus := ih.trans (hsquare _ _)
      have hexponent : 2 * (exponent / 2) = exponent := by omega
      rw [hrest, hexponent]

theorem cast_pow_eq_one_iff {base exponent modulus : Nat} (h : 1 < modulus) :
    (base : ZMod modulus) ^ exponent = 1 ↔ power base exponent modulus = 1 := by
  rw [power_eq, ← Nat.cast_pow, ← Nat.cast_one, ZMod.natCast_eq_natCast_iff', Nat.mod_eq_of_lt h]

/-- Lucas's test for a number that exceeds the product of a power of two and of a number with one
prime factor by one. -/
theorem prime_of_power (base : Nat) {factor r m : Nat}
    (hfactor : ∀ q : Nat, q.Prime → q ∣ factor → q = r)
    (hpos : 0 < factor * 2 ^ m)
    (hone : power base (factor * 2 ^ m) (factor * 2 ^ m + 1) = 1)
    (htwo : power base (factor * 2 ^ m / 2) (factor * 2 ^ m + 1) ≠ 1)
    (hr : power base (factor * 2 ^ m / r) (factor * 2 ^ m + 1) ≠ 1) :
    (factor * 2 ^ m + 1).Prime := by
  have hmodulus : 1 < factor * 2 ^ m + 1 := Nat.succ_lt_succ hpos
  refine lucas_primality _ base ((cast_pow_eq_one_iff hmodulus).mpr hone) ?_
  intro q hq hdvd
  rw [Nat.add_sub_cancel] at hdvd ⊢
  rw [ne_eq, cast_pow_eq_one_iff hmodulus]
  rcases hq.dvd_mul.mp hdvd with hdvd | hdvd
  · rwa [hfactor q hq hdvd]
  · rwa [(Nat.prime_dvd_prime_iff_eq hq Nat.prime_two).mp (hq.dvd_of_dvd_pow hdvd)]

theorem pow_modEq_of_prime {p exponent : Nat} (hp : p.Prime) (hodd : 2 < p)
    (h : exponent % (p - 1) = 1 % (p - 1)) (m : Nat) : m ^ exponent ≡ m [MOD p] := by
  have : Fact p.Prime := ⟨hp⟩
  rw [Nat.mod_eq_of_lt (show 1 < p - 1 by omega)] at h
  have hexponent : exponent = (p - 1) * (exponent / (p - 1)) + 1 := by
    have hsplit := Nat.div_add_mod exponent (p - 1)
    rw [h] at hsplit
    exact hsplit.symm
  rw [← ZMod.natCast_eq_natCast_iff, Nat.cast_pow, hexponent, pow_succ, pow_mul]
  by_cases hzero : (m : ZMod p) = 0
  · rw [hzero, mul_zero]
  · rw [ZMod.pow_card_sub_one_eq_one hzero, one_pow, one_mul]

end Modular

namespace Digest

theorem Sha256.length_step {chain : List UInt32} (h : chain.length = 8) (block : Octets) :
    (Sha256.step chain block).length = 8 := by
  unfold Sha256.step
  split
  · rfl
  · exact h

theorem Sha256.length_foldl_step {chain : List UInt32} (h : chain.length = 8)
    (blocks : List Octets) : (blocks.foldl Sha256.step chain).length = 8 := by
  induction blocks generalizing chain with
  | nil => exact h
  | cons block rest ih => exact ih (Sha256.length_step h block)

theorem length_sha256 (message : Octets) : (sha256 message).length = 32 := by
  have hchain : (Sha256.initial).length = 8 := rfl
  have hwords := Sha256.length_foldl_step hchain (blocks 64 (pad 64 8 message))
  simp only [sha256, Sha256.run, List.length_flatMap, Octets.length_ofNat, List.map_const',
    List.sum_replicate, hwords]
  rfl

theorem length_info (message : Octets) : (Algorithm.info .sha256 message).length = 51 := by
  have halgorithm : (Asn1.sequence [Algorithm.sha256.oid.encode, Asn1.null]).length = 15 := by
    decide
  have hoctets : (Asn1.octetString (sha256 message)).length = 34 := by
    simp [Asn1.octetString, Asn1.encode, Asn1.encodeLength, length_sha256]
  simp only [Algorithm.info, Algorithm.digest]
  generalize Asn1.sequence [Algorithm.sha256.oid.encode, Asn1.null] = name at halgorithm ⊢
  generalize Asn1.octetString (sha256 message) = octets at hoctets ⊢
  simp [Asn1.sequence, Asn1.encode, Asn1.encodeLength, halgorithm, hoctets]

end Digest

namespace Rsa

variable {key : SecretKey}

theorem length_paddedDigest {width : Nat} (h : 54 ≤ width) (message : Octets) :
    (paddedDigest .sha256 width message).length = width := by
  simp only [paddedDigest, List.length_cons, List.length_append, List.length_replicate,
    Digest.length_info]
  omega

theorem value_paddedDigest_lt {n : Nat} (h : 54 ≤ Octets.width n) (message : Octets) :
    Octets.value (paddedDigest .sha256 (Octets.width n) message) < n := by
  have hlength := length_paddedDigest h message
  rw [paddedDigest, List.cons_append, List.length_cons] at hlength
  rw [paddedDigest, List.cons_append, Octets.value_cons, UInt8.toNat_zero, Nat.zero_mul,
    Nat.zero_add]
  refine Nat.lt_of_lt_of_le (Octets.value_lt _) ?_
  refine Nat.not_lt.mp fun hsmall => ?_
  have := Octets.width_le_of_lt_pow hsmall
  omega

theorem power_power_of_prime (hp : key.p.Prime) (hq : key.q.Prime) (hne : key.p ≠ key.q) {m : Nat}
    (hm : m < key.n) :
    Modular.power (Modular.power m key.d key.n) key.e key.n = m := by
  obtain ⟨-, hodd, -, -, -, -, -, hn, hdP, hdQ⟩ := key.isKey
  have htwo : ∀ {p : Nat}, p.Prime → p ∣ key.n → 2 < p := by
    intro p hprime hdvd
    rcases hprime.eq_two_or_odd with rfl | hprimeOdd
    · omega
    · have := hprime.two_le
      omega
  have hmodP := Modular.pow_modEq_of_prime hp (htwo hp ⟨key.q, hn.symm⟩) hdP m
  have hmodQ := Modular.pow_modEq_of_prime hq (htwo hq ⟨key.p, by rw [Nat.mul_comm, hn]⟩) hdQ m
  have hcoprime := (Nat.coprime_primes hp hq).mpr hne
  have hmod := (Nat.modEq_and_modEq_iff_modEq_mul hcoprime).mp ⟨hmodP, hmodQ⟩
  rw [hn] at hmod
  rw [Modular.power_eq, Modular.power_eq, ← Nat.pow_mod, ← Nat.pow_mul, hmod,
    Nat.mod_eq_of_lt hm]

/-- The signatures of a key with two different primes hold, if its modulus has room for a digest. -/
theorem verify_sign (hp : key.p.Prime) (hq : key.q.Prime) (hne : key.p ≠ key.q)
    (hwidth : 54 ≤ Octets.width key.n) (message : Octets) :
    verify .sha256 key.n key.e message (sign .sha256 key message) = true := by
  have hblock := value_paddedDigest_lt hwidth message
  have hlength := length_paddedDigest hwidth message
  have hsigned := power_power_of_prime hp hq hne hblock
  have hs : Modular.power (Octets.value (paddedDigest .sha256 (Octets.width key.n) message)) key.d
      key.n < key.n := by
    rw [Modular.power_eq]
    exact Nat.mod_lt _ (by omega)
  have hvalue := Nat.mod_eq_of_lt (Nat.lt_trans hs (Octets.lt_pow_width key.n))
  have hwritten : Octets.ofNat (Octets.width key.n)
      (Octets.value (paddedDigest .sha256 (Octets.width key.n) message)) =
        paddedDigest .sha256 (Octets.width key.n) message := by
    apply Octets.eq_of_value_eq
    · rw [Octets.length_ofNat, hlength]
    · rw [Octets.value_ofNat, Nat.mod_eq_of_lt (Nat.lt_trans hblock (Octets.lt_pow_width key.n))]
  simp only [verify, opens, sign, Octets.length_ofNat, Octets.value_ofNat, hvalue, hsigned,
    hwritten, hs, beq_self_eq_true, decide_true, Bool.and_true]

end Rsa

/-! A key of 2048 bits. One less than each of its primes is a power of two with a small factor. -/

namespace Sample

def greaterPrime : Nat := 3931 * 2 ^ 1012 + 1

def lesserPrime : Nat := 1331 * 2 ^ 1013 + 1

/-- The private exponent; the primes less one divide `1331 * 3931 * 2 ^ 1013`. -/
def privateExponent : Nat := (19918 * (1331 * 3931 * 2 ^ 1013) + 1) / 65537

def signingKey : Rsa.SecretKey where
  n := greaterPrime * lesserPrime
  e := 65537
  d := privateExponent
  p := greaterPrime
  q := lesserPrime
  isKey := by decide +kernel

theorem prime_greaterPrime : greaterPrime.Prime := by
  have hfactor : ∀ q : Nat, q.Prime → q ∣ 3931 → q = 3931 := by
    intro q hq hdvd
    exact (Nat.prime_dvd_prime_iff_eq hq (by norm_num)).mp hdvd
  exact Modular.prime_of_power 3 hfactor (by decide +kernel) (by decide +kernel)
    (by decide +kernel) (by decide +kernel)

theorem prime_lesserPrime : lesserPrime.Prime := by
  have hfactor : ∀ q : Nat, q.Prime → q ∣ 1331 → q = 11 := by
    intro q hq hdvd
    have hcube : q ∣ 11 ^ 3 := hdvd
    exact (Nat.prime_dvd_prime_iff_eq hq (by norm_num)).mp (hq.dvd_of_dvd_pow hcube)
  exact Modular.prime_of_power 3 hfactor (by decide +kernel) (by decide +kernel)
    (by decide +kernel) (by decide +kernel)

end Sample

end CertRotation
