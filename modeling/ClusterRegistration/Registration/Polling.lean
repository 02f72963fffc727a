import ClusterRegistration.Registration.Deadline

/-!
This module contains polling: attempts are repeated until one succeeds, fails for good, or leaves no
time for another one.
-/

namespace ClusterRegistration.Registration

structure Polling where
  interval : Nat
  deadline : Deadline
deriving DecidableEq, Repr, Inhabited

namespace Polling

variable {m : Type → Type} [Monad m]

/--
Whether the deadline is over by the time of the next attempt. The clock is only asked if there is one, and the
sum is a moment that it shows as long as it is at most `Clock.latest`.
-/
def leavesNoTime (p : Polling) (clock : Clock m) : m Bool :=
  match p.deadline.moment? with
  | some moment => do return moment ≤ (← clock.now) + p.interval
  | none => pure false

def conclude (p : Polling) (clock : Clock m) (attempts : Nat) (outcome : Except Error Unit) :
    m (Option (Except Error Unit)) :=
  match outcome with
  | .ok () => pure (some (.ok ()))
  | .error e =>
    if e.isRecoverable then do
      if ← p.leavesNoTime clock then pure (some (.error (.timeout attempts e))) else pure none
    else pure (some (.error e))

/--
Go on after some attempts, with so many to go at most. Nothing is returned if they were too few.
-/
def runFrom (p : Polling) (clock : Clock m) (attempt : m (Except Error Unit)) (before : Nat) :
    Nat → m (Option (Except Error Unit))
  | 0 => pure none
  | n + 1 => do
    match ← p.conclude clock (before + 1) (← attempt) with
    | some result => pure (some result)
    | none =>
      clock.sleep p.interval
      p.runFrom clock attempt (before + 1) n

def maxAttempts : Nat := Nat.pow 2 32 - 1

def run (p : Polling) (clock : Clock m) (attempt : m (Except Error Unit)) :
    m (Option (Except Error Unit)) :=
  p.runFrom clock attempt 0 maxAttempts

end Polling

end ClusterRegistration.Registration
