import ClusterRegistration.Machine
import ClusterRegistration.Registration.Script

namespace ClusterRegistration.Registration

structure Deadline where
  moment? : Option Nat
deriving DecidableEq, Repr, Inhabited

namespace Deadline

def never : Deadline :=
  ⟨none⟩

def isOver (d : Deadline) (now : Nat) : Bool :=
  d.moment?.any (· ≤ now)

variable {m : Type → Type} [Monad m] {α : Type}

/--
Make a call unless the deadline is over. A call that never completes gives nothing, and lasts until
the deadline.
-/
def guard (clock : Clock m) (d : Deadline) (operation : String) (call : m (Option α)) :
    m (Except Error α) := do
  if d.isOver (← clock.now) then
    return .error (.deadlineExceeded operation)
  match ← call with
  | some a => return .ok a
  | none =>
    clock.sleep (d.moment?.getD 0 - (← clock.now))
    return .error (.deadlineExceeded operation)

end Deadline

def Script.run {m : Type → Type} [Monad m] {α : Type} (clock : Clock m) (deadline : Deadline)
    (perform : (a : Action) → m (Option a.Outcome)) : Script α → m (Except Error α)
  | .done result => pure result
  | .act a next => do
    match ← deadline.guard clock a.operation (perform a) with
    | .ok o => (next o).run clock deadline perform
    | .error e => pure (.error e)

end ClusterRegistration.Registration
