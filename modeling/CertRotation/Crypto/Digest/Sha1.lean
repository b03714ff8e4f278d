import CertRotation.Crypto.Digest.Padding

namespace CertRotation.Digest.Sha1

/-- The five working words. -/
structure State where
  a : UInt32
  b : UInt32
  c : UInt32
  d : UInt32
  e : UInt32

def initial : State := ⟨0x67452301, 0xefcdab89, 0x98badcfe, 0x10325476, 0xc3d2e1f0⟩

/-- The selecting function and constant of round `t`. -/
def mix (t : Nat) (b c d : UInt32) : UInt32 :=
  if t < 20 then ((b &&& c) ||| (~~~b &&& d)) + 0x5a827999
  else if t < 40 then (b ^^^ c ^^^ d) + 0x6ed9eba1
  else if t < 60 then ((b &&& c) ||| (b &&& d) ||| (c &&& d)) + 0x8f1bbcdc
  else (b ^^^ c ^^^ d) + 0xca62c1d6

/-- The remaining `n` rounds, where `window` holds the next sixteen schedule words. -/
def rounds : (n : Nat) → (window : List UInt32) → State → State
  | 0, _, s => s
  | n + 1, window, s =>
    let word := window.getD 0 0
    let next := rotateLeft32
      (window.getD 13 0 ^^^ window.getD 8 0 ^^^ window.getD 2 0 ^^^ word) 1
    let a := rotateLeft32 s.a 5 + mix (79 - n) s.b s.c s.d + s.e + word
    rounds n (window.drop 1 ++ [next]) ⟨a, s.a, rotateLeft32 s.b 30, s.c, s.d⟩

def step (s : State) (block : Octets) : State :=
  let t := rounds 80 (words32 block) s
  ⟨s.a + t.a, s.b + t.b, s.c + t.c, s.d + t.d, s.e + t.e⟩

end Sha1

/-- The SHA-1 digest, 20 octets. -/
def sha1 (message : Octets) : Octets :=
  let s := (blocks 64 (pad 64 8 message)).foldl Sha1.step Sha1.initial
  [s.a, s.b, s.c, s.d, s.e].flatMap fun word => Octets.ofNat 4 word.toNat

end CertRotation.Digest
