import CertRotation.Binary64.Basic
import CertRotation.Time.Instant

namespace CertRotation

/-- Gives the offset from the start of a validity, for the length of the validity. -/
abbrev Jitter := Duration → Duration

namespace Jitter

/-- A duration times a factor, in whole milliseconds; the duration itself when the product is out of
range. -/
def scale (base : Duration) (factor : Binary64) : Duration :=
  let milliseconds := ((Binary64.ofInt base.wholeMilliseconds).mul factor).toInt64
  let product := Duration.ofMilliseconds milliseconds
  if product.inRange then product else base

def atFactor (factor : Binary64) : Jitter := fun base => scale base factor

/-- The number of steps between the two ends of a range of factors. -/
def steps : Nat := Nat.pow 2 52

/-- The factor a number of steps into a range, for two finite ends and at most `steps` steps. -/
def between (low high : Binary64) (step : Nat) : Binary64 :=
  match low, high with
  | .finite s m e _, .finite s' m' e' _ =>
    let sum := Binary64.scaled s m e * (steps - step : Nat) + Binary64.scaled s' m' e' * step
    Binary64.ofRatio (sum < 0) sum.natAbs (steps * Binary64.pow2 1074)
  | _, _ => low

/-- The factor that a random number picks; the lower bound unless it is below the upper one. -/
def factor (low high : Binary64) (random : Nat) : Binary64 :=
  if low < high then between low high (random % (steps + 1)) else low

end Jitter

/-- The length of a validity; one that ends before it starts has none. -/
def validityWindow (notBefore notAfter : Instant) : Duration :=
  let window := notAfter.since notBefore
  if window < Duration.zero then Duration.zero else window

/-- An offset into a validity of a given length, at the earliest at its start and at the latest at
its end. -/
def offsetInto (notBefore : Instant) (window offset : Duration) : Instant :=
  notBefore.plus (offset.clamp Duration.zero window)

/-- When a certificate is to be replaced. -/
def rotationDeadline (notBefore notAfter : Instant) (jitter : Jitter) : Instant :=
  let window := validityWindow notBefore notAfter
  offsetInto notBefore window (jitter window)

end CertRotation
