import CertRotation.Rotation.Generation
import CertRotation.Rotation.Jitter
import CertRotation.Settings.Rotation

/-!
The manager of one webhook's certificates. It keeps the authority that clients currently trust,
waits for the time to replace it, makes a new generation and writes it: first the key material, then
the bundle. A generation whose writes did not all succeed stays pending and is written again as
long as its authority is valid.
-/

namespace CertRotation

open ManagerRequest (ask)

/-- How a cycle ended that did not fail. -/
inductive CycleOutcome where
  | rotated
  | cancelled
deriving DecidableEq, Repr

namespace CycleOutcome

def name : CycleOutcome → String
  | rotated => "Rotated"
  | cancelled => "Cancelled"

end CycleOutcome

/-- A manager: what it works for, the authority it has last loaded or written, and the generation
that is still to be written. -/
structure RotationManager where
  identity : WebhookIdentity
  certDuration : Duration
  organization : List String
  retryBackoff : Duration
  ca : Option Certificate
  pending : Option Generation

namespace RotationManager

/-- A manager that has not loaded anything yet. -/
def new (identity : WebhookIdentity) (certDuration : Duration) : RotationManager where
  identity := identity
  certDuration := certDuration
  organization := RotationSettings.defaults.organization
  retryBackoff := RotationSettings.defaults.retryBackoff
  ca := none
  pending := none

/-- A manager with settings that are accepted now. -/
def ofSettings (identity : WebhookIdentity) (settings : RotationSettings) (now : Instant) :
    Except Failure RotationManager := do
  settings.check now
  identity.check
  return { new identity settings.certDuration with
    organization := settings.organization
    retryBackoff := settings.retryBackoff }

/-- When an authority is to be replaced. Every time it is asked for, chance is asked anew. -/
def deadlineOf (ca : Certificate) : Work Instant := do
  let window := validityWindow ca.notBefore ca.notAfter
  let offset ← ask (.jitter window)
  return offsetInto ca.notBefore window offset

/-- When the current authority is to be replaced, if there is one. -/
def nextDeadline (manager : RotationManager) : Work (Option Instant) :=
  match manager.ca with
  | none => return none
  | some ca => some <$> deadlineOf ca

/-- Whether the time to replace the authority has come; it has when there is none. -/
def isDue (manager : RotationManager) : Work Bool := do
  match ← manager.nextDeadline with
  | none => return true
  | some deadline =>
    let now ← ask .now
    return deadline ≤ now

/-- The authority behind the stored material, if material and bundle are there and hold together
now. -/
def loadExisting (id : WebhookIdentity) : ExceptT Failure Work (Option Certificate) := do
  let some material ← ExceptT.mk (ask (.get id)) | return none
  let some bundle ← ExceptT.mk (ask (.getBundle id)) | return none
  let now ← ExceptT.lift (ask .now)
  match material.verifyChain bundle now with
  | .ok (_, ca) => return some ca
  | .error _ => return none

/-- Writes a generation: the key material, then the bundle. -/
def commit (id : WebhookIdentity) (generation : Generation) : ExceptT Failure Work Unit := do
  ExceptT.mk (ask (.put id generation.material))
  ExceptT.mk (ask (.putBundle id generation.bundle))

/-- The generation to write at a time: the pending one while its authority is valid, else a new
one. -/
def nextGeneration (manager : RotationManager) (now : Instant) :
    ExceptT Failure Work Generation :=
  match manager.pending.filter (·.ca.isValidAt now) with
  | some generation => return generation
  | none => Generation.mint manager.identity manager.organization manager.certDuration now

/-- Writes the next generation and makes its authority the current one. If it cannot be made,
nothing is pending any more; if it cannot be written, it is pending. -/
def rotate (manager : RotationManager) :
    Work (Except Failure Certificate × RotationManager) := do
  let now ← ask .now
  match ← (manager.nextGeneration now).run with
  | .error failure => return (.error failure, { manager with pending := none })
  | .ok generation =>
    match ← (commit manager.identity generation).run with
    | .error failure => return (.error failure, { manager with pending := some generation })
    | .ok () =>
      return (.ok generation.ca, { manager with ca := some generation.ca, pending := none })

/-- Makes sure that there is a current authority: the one it has, the one behind the stored
material, or a new one. -/
def loadOrGenerate (manager : RotationManager) :
    Work (Except Failure Certificate × RotationManager) :=
  match manager.ca with
  | some ca => return (.ok ca, manager)
  | none => do
    match ← (loadExisting manager.identity).run with
    | .error failure => return (.error failure, manager)
    | .ok (some ca) => return (.ok ca, { manager with ca := some ca })
    | .ok none => manager.rotate

/-- Rotates and tells so. -/
def rotated (manager : RotationManager) : Work (Except Failure CycleOutcome × RotationManager) := do
  let (result, manager) ← manager.rotate
  return (result.map fun _ => .rotated, manager)

/-- Waits for the deadline of an authority and rotates, unless cancelled before. -/
def waitAndRotate (manager : RotationManager) (ca : Certificate) :
    Work (Except Failure CycleOutcome × RotationManager) := do
  let deadline ← deadlineOf ca
  let now ← ask .now
  if now < deadline then
    if ← ask (.sleep (deadline.since now)) then return (.ok .cancelled, manager)
  if ← ask .isCancelled then return (.ok .cancelled, manager)
  manager.rotated

/-- One cycle: a pending generation is written at once; else the authority is loaded or made, and
replaced at its deadline. A cycle that is cancelled before it rotates writes nothing. -/
def cycle (manager : RotationManager) : Work (Except Failure CycleOutcome × RotationManager) := do
  if ← ask .isCancelled then return (.ok .cancelled, manager)
  if manager.pending.isSome then return ← manager.rotated
  match ← manager.loadOrGenerate with
  | (.error failure, manager) => return (.error failure, manager)
  | (.ok ca, manager) => manager.waitAndRotate ca

/-- Goes through cycles until cancelled, and at most a number of them. A failure is reported, and
the next cycle comes after the pause for failures. -/
def runCycles : (budget : Nat) → RotationManager → Work RotationManager
  | 0, manager => return manager
  | budget + 1, manager => do
    match ← manager.cycle with
    | (.ok .rotated, manager) => manager.runCycles budget
    | (.ok .cancelled, manager) => return manager
    | (.error failure, manager) =>
      ask (.report failure)
      if ← ask (.sleep manager.retryBackoff) then return manager
      manager.runCycles budget

end RotationManager

end CertRotation
