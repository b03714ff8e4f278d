namespace CertRotation.Modular

/-- `base ^ exponent` modulo `modulus`, by squaring. -/
def power (base exponent modulus : Nat) : Nat :=
  if _h : exponent = 0 then 1 % modulus
  else
    let rest := power (base * base % modulus) (exponent / 2) modulus
    if exponent % 2 = 1 then rest * base % modulus else rest
termination_by exponent
decreasing_by omega

/-- The difference, for `b ≤ modulus`. -/
def sub (a b modulus : Nat) : Nat := (a + (modulus - b)) % modulus

/-- The greatest common divisor of `a` and `b`, and a coefficient of `a` in it modulo everything
that divides `b`: `x` and `y` are the coefficients that led to `a` and `b`. -/
def euclid (a b : Nat) (x y : Int) : Nat × Int :=
  if _h : b = 0 then (a, x)
  else euclid b (a % b) y (x - y * (a / b : Nat))
termination_by b
decreasing_by exact Nat.mod_lt _ (by omega)

def inverse? (a modulus : Nat) : Option Nat :=
  let (divisor, coefficient) := euclid (a % modulus) modulus 1 0
  if divisor = 1 then some (coefficient % modulus).toNat else none

end CertRotation.Modular
