/-!
Programs that ask their surroundings for one thing after another and go on with the answers. What
is asked for is visible in the program, so that the surroundings may answer as they like, stop a
program for good, or let several programs take turns.
-/

namespace CertRotation

/-- What can be asked for, and the answers to each request. -/
structure Interface where
  Request : Type
  Answer : Request → Type

/-- A program that asks through an interface and ends with a value. -/
inductive Program (I : Interface) (α : Type) where
  | done (value : α)
  | ask (request : I.Request) (next : I.Answer request → Program I α)

namespace Program

variable {I : Interface} {α β : Type}

/-- Goes on with another program where one ends. -/
def bind : Program I α → (α → Program I β) → Program I β
  | done value, next => next value
  | ask request resume, next => ask request fun answer => (resume answer).bind next

instance : Monad (Program I) where
  pure := done
  bind := bind

/-- The program that asks once and ends with the answer. -/
def perform (request : I.Request) : Program I (I.Answer request) := ask request done

/-- Runs a program to its end, each request answered by its surroundings. -/
def run {m : Type → Type} [Monad m] (handle : (request : I.Request) → m (I.Answer request)) :
    Program I α → m α
  | done value => pure value
  | ask request next => do
    let answer ← handle request
    (next answer).run handle

end Program

end CertRotation
