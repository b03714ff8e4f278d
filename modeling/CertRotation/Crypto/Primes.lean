import CertRotation.Crypto.Modular

namespace CertRotation.Primes

/-- Whether no number from 2 to its square root divides a number. -/
def isSmallPrime (n : Nat) : Bool :=
  2 ≤ n && (List.range (n.sqrt + 1)).all fun k => k < 2 || n % k != 0

/-- Primes below this limit are listed. -/
def smallLimit : Nat := 2000

/-- The primes that candidates are divided by before they are tested. -/
def small : List Nat := (List.range smallLimit).filter isSmallPrime

/-- Halves an even number until it is odd, and counts how often. -/
def oddPart : (budget n : Nat) → Nat × Nat
  | 0, n => (n, 0)
  | budget + 1, n =>
    if n % 2 = 1 then (n, 0)
    else
      let (odd, count) := oddPart budget (n / 2)
      (odd, count + 1)

/-- Whether one of `x, x², x⁴, ..`, `count` numbers in all, is `-1` modulo `n`. -/
def reachesMinusOne (n : Nat) : (count x : Nat) → Bool
  | 0, _ => false
  | count + 1, x => x = n - 1 || reachesMinusOne n count (x * x % n)

/-- Whether an odd number passes the test of Miller and Rabin to a base. -/
def passes (n base : Nat) : Bool :=
  let (odd, count) := oddPart (n.log2 + 1) (n - 1)
  let x := Modular.power base odd n
  x == 1 || reachesMinusOne n count x

/-- The number of bases that candidates are tested to. -/
def rounds : Nat := 12

/-- Whether a number is a prime, but for a negligible part of the numbers drawn at random. -/
def isProbablePrime (n : Nat) : Bool :=
  if n < smallLimit then small.contains n
  else small.all (n % · != 0) && (small.take rounds).all (passes n)

/-- The first number from `start` on, by steps of two and at most `budget` of them, that is
acceptable and probably prime. -/
def next? (acceptable : Nat → Bool) : (budget start : Nat) → Option Nat
  | 0, _ => none
  | budget + 1, start =>
    if acceptable start && isProbablePrime start then some start
    else next? acceptable budget (start + 2)

end CertRotation.Primes
