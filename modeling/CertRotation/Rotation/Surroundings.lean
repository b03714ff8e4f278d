import CertRotation.Issuance.Leaf
import CertRotation.Program
import CertRotation.Trust.TlsMaterial

namespace CertRotation

/-- A request of a manager. -/
inductive ManagerRequest where
  | now
  | jitter (window : Duration)
  | newKey
  | newSerial
  | get (id : WebhookIdentity)
  | put (id : WebhookIdentity) (material : TlsMaterial)
  | getBundle (id : WebhookIdentity)
  | putBundle (id : WebhookIdentity) (bundle : Octets)
  | isCancelled
  | sleep (duration : Duration)
  | report (failure : Failure)

namespace ManagerRequest

/-- The answer to each request. Jitter gives an offset into a validity of the given length, and
sleep says whether it was cut short by cancellation. -/
abbrev Answer : ManagerRequest → Type
  | now => Instant
  | jitter _ => Duration
  | newKey => Except Failure PrivateKey
  | newSerial => LeafSerial
  | get _ => Except Failure (Option TlsMaterial)
  | put _ _ => Except Failure Unit
  | getBundle _ => Except Failure (Option Octets)
  | putBundle _ _ => Except Failure Unit
  | isCancelled => Bool
  | sleep _ => Bool
  | report _ => Unit

def interface : Interface := ⟨ManagerRequest, Answer⟩

def ask (request : ManagerRequest) : Program interface request.Answer :=
  Program.perform (I := interface) request

end ManagerRequest

abbrev Work := Program ManagerRequest.interface

end CertRotation
