import CertRotation.Crypto.Digest.Padding

namespace CertRotation.Digest.Sha256

/-- The first 32 bits of the fractions of the cube roots of the first 64 primes. -/
def constants : List UInt32 :=
  [0x428a2f98, 0x71374491, 0xb5c0fbcf, 0xe9b5dba5, 0x3956c25b, 0x59f111f1,
    0x923f82a4, 0xab1c5ed5, 0xd807aa98, 0x12835b01, 0x243185be, 0x550c7dc3,
    0x72be5d74, 0x80deb1fe, 0x9bdc06a7, 0xc19bf174, 0xe49b69c1, 0xefbe4786,
    0x0fc19dc6, 0x240ca1cc, 0x2de92c6f, 0x4a7484aa, 0x5cb0a9dc, 0x76f988da,
    0x983e5152, 0xa831c66d, 0xb00327c8, 0xbf597fc7, 0xc6e00bf3, 0xd5a79147,
    0x06ca6351, 0x14292967, 0x27b70a85, 0x2e1b2138, 0x4d2c6dfc, 0x53380d13,
    0x650a7354, 0x766a0abb, 0x81c2c92e, 0x92722c85, 0xa2bfe8a1, 0xa81a664b,
    0xc24b8b70, 0xc76c51a3, 0xd192e819, 0xd6990624, 0xf40e3585, 0x106aa070,
    0x19a4c116, 0x1e376c08, 0x2748774c, 0x34b0bcb5, 0x391c0cb3, 0x4ed8aa4a,
    0x5b9cca4f, 0x682e6ff3, 0x748f82ee, 0x78a5636f, 0x84c87814, 0x8cc70208,
    0x90befffa, 0xa4506ceb, 0xbef9a3f7, 0xc67178f2]

/-- The state before the first block: the first 32 bits of the fractions of the square roots of
the first eight primes. -/
def initial : List UInt32 :=
  [0x6a09e667, 0xbb67ae85, 0x3c6ef372, 0xa54ff53a, 0x510e527f, 0x9b05688c,
    0x1f83d9ab, 0x5be0cd19]

/-- The eight working words. -/
structure State where
  a : UInt32
  b : UInt32
  c : UInt32
  d : UInt32
  e : UInt32
  f : UInt32
  g : UInt32
  h : UInt32

/-- One round per remaining constant, where `window` holds the next sixteen schedule words. -/
def rounds : (remaining window : List UInt32) → State → State
  | [], _, s => s
  | k :: remaining, window, s =>
    let word := window.getD 0 0
    let w1 := window.getD 1 0
    let w14 := window.getD 14 0
    let sigma0 := rotateRight32 w1 7 ^^^ rotateRight32 w1 18 ^^^ (w1 >>> 3)
    let sigma1 := rotateRight32 w14 17 ^^^ rotateRight32 w14 19 ^^^ (w14 >>> 10)
    let next := word + sigma0 + window.getD 9 0 + sigma1
    let sum1 := rotateRight32 s.e 6 ^^^ rotateRight32 s.e 11 ^^^ rotateRight32 s.e 25
    let choice := (s.e &&& s.f) ^^^ (~~~s.e &&& s.g)
    let t1 := s.h + sum1 + choice + k + word
    let sum0 := rotateRight32 s.a 2 ^^^ rotateRight32 s.a 13 ^^^ rotateRight32 s.a 22
    let majority := (s.a &&& s.b) ^^^ (s.a &&& s.c) ^^^ (s.b &&& s.c)
    rounds remaining (window.drop 1 ++ [next])
      ⟨t1 + sum0 + majority, s.a, s.b, s.c, s.d + t1, s.e, s.f, s.g⟩

/-- The chaining words after one more block. -/
def step (chain : List UInt32) (block : Octets) : List UInt32 :=
  match chain with
  | [a, b, c, d, e, f, g, h] =>
    let s := rounds constants (words32 block) ⟨a, b, c, d, e, f, g, h⟩
    [a + s.a, b + s.b, c + s.c, d + s.d, e + s.e, f + s.f, g + s.g, h + s.h]
  | _ => chain

/-- The octets of the chaining words after the whole message. -/
def run (start : List UInt32) (message : Octets) : Octets :=
  ((blocks 64 (pad 64 8 message)).foldl step start).flatMap fun word =>
    Octets.ofNat 4 word.toNat

end Sha256

/-- The SHA-256 digest, 32 octets. -/
def sha256 (message : Octets) : Octets :=
  Sha256.run Sha256.initial message

/-- The key as one block: a long key is hashed, a short one filled up with zeros. -/
def hmacKeyBlock (key : Octets) : Octets :=
  let short := if key.length > 64 then sha256 key else key
  short ++ List.replicate (64 - short.length) 0

/-- The HMAC-SHA-256 of a message under a key. -/
def hmacSha256 (key message : Octets) : Octets :=
  let block := hmacKeyBlock key
  sha256 (block.map (· ^^^ 0x5c) ++ sha256 (block.map (· ^^^ 0x36) ++ message))

end CertRotation.Digest
