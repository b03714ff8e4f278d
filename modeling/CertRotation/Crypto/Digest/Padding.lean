import CertRotation.Octets

namespace CertRotation.Digest

/-- Appends a one bit, the fewest zeros, and the bit length in `lengthOctets` octets, so that the
result is a whole number of blocks. -/
def pad (blockOctets lengthOctets : Nat) (message : Octets) : Octets :=
  let used := (message.length + 1 + lengthOctets) % blockOctets
  message ++ 0x80 :: List.replicate ((blockOctets - used) % blockOctets) 0 ++
    Octets.ofNat lengthOctets (message.length * 8)

/-- Cuts a message into blocks of `size` octets; a shorter rest is left out. -/
def blocks (size : Nat) (message : Octets) : List Octets :=
  if _h : size = 0 ∨ message.length < size then []
  else message.take size :: blocks size (message.drop size)
termination_by message.length
decreasing_by
  simp only [List.length_drop]
  omega

/-- The 32-bit words of a block, most significant octet first. -/
def words32 : Octets → List UInt32
  | a :: b :: c :: d :: rest =>
    ((a.toUInt32 <<< 24) ||| (b.toUInt32 <<< 16) ||| (c.toUInt32 <<< 8) ||| d.toUInt32) ::
      words32 rest
  | _ => []

/-- The 64-bit words of a block, most significant octet first. -/
def words64 (block : Octets) : List UInt64 :=
  (blocks 8 block).map fun word => word.foldl (fun acc byte => (acc <<< 8) ||| byte.toUInt64) 0

/-- The word turned left by `n` bits, for `0 < n < 32`. -/
def rotateLeft32 (word n : UInt32) : UInt32 :=
  (word <<< n) ||| (word >>> (32 - n))

/-- The word turned right by `n` bits, for `0 < n < 32`. -/
def rotateRight32 (word n : UInt32) : UInt32 :=
  (word >>> n) ||| (word <<< (32 - n))

/-- The word turned right by `n` bits, for `0 < n < 64`. -/
def rotateRight64 (word n : UInt64) : UInt64 :=
  (word >>> n) ||| (word <<< (64 - n))

end CertRotation.Digest
