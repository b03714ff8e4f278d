import CertRotation.Failure
import CertRotation.X509.Time

namespace CertRotation

/-- The settings of rotation. A certificate is replaced when a fraction of its validity between the
two factors has passed. -/
structure RotationSettings where
  certSeconds : UInt64
  jitterMin : Binary64
  jitterMax : Binary64
  retrySeconds : UInt64
  organization : List String
deriving DecidableEq

namespace RotationSettings

/-- What holds for a setting that is left out: a year, 0.7 to 0.9 of it, ten seconds. -/
def defaults : RotationSettings where
  certSeconds := 31536000
  jitterMin := .ofDecimal false 7 (-1)
  jitterMax := .ofDecimal false 9 (-1)
  retrySeconds := 10
  organization := []

/-- The validity of certificates, if it is a duration. -/
def certDuration? (settings : RotationSettings) : Option Duration :=
  let duration := Duration.ofSeconds settings.certSeconds.toNat
  if duration.inRange then some duration else none

/-- The validity of certificates; the longest duration stands in for a longer one. -/
def certDuration (settings : RotationSettings) : Duration :=
  settings.certDuration?.getD Duration.max

/-- The pause after a failure. -/
def retryBackoff (settings : RotationSettings) : Duration :=
  .ofSeconds settings.retrySeconds.toNat

/-- Checks that a factor lies strictly between 0 and 1. -/
def checkFactor (field : FactorField) (factor : Binary64) : Except Failure Unit :=
  if Binary64.zero < factor ∧ factor < Binary64.one then .ok ()
  else .error (.config (.factorRange field factor))

/-- Checks the settings: a validity that certificates issued now can carry, and two factors in
order. -/
def check (settings : RotationSettings) (now : Instant) : Except Failure Unit := do
  if settings.certSeconds = 0 then throw (.config .zeroDuration)
  let some duration := settings.certDuration? | throw (.config .hugeDuration)
  if (Issuance.endOfValidity? now duration).isNone then
    throw (.config (.expiresTooLate settings.certSeconds.toNat))
  checkFactor .min settings.jitterMin
  checkFactor .max settings.jitterMax
  if settings.jitterMax < settings.jitterMin then
    throw (.config (.factorOrder settings.jitterMin settings.jitterMax))

end RotationSettings

/-- Checks that a text can serve as a label of host names. -/
def LabelField.check (field : LabelField) (value : String) : Except Failure Unit :=
  if value = "" then .error (.config (.emptyLabel field))
  else if WebhookIdentity.isLabel value then .ok ()
  else .error (.config (.badLabel field value))

/-- Checks the name and then the space of a webhook. -/
def WebhookIdentity.check (id : WebhookIdentity) : Except Failure Unit := do
  LabelField.name.check id.name
  LabelField.space.check id.space

end CertRotation
