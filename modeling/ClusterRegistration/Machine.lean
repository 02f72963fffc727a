import ClusterRegistration.FileTree
import ClusterRegistration.Http.Basic

namespace ClusterRegistration

structure Clock (m : Type → Type) where
  now : m Nat
  sleep : Nat → m Unit

def Clock.still {m : Type → Type} [Monad m] (now : Nat) : Clock m :=
  ⟨pure now, fun _ => pure ()⟩

/--
The latest moment that a clock shows. Seconds are counted in 64 bits with a sign.
-/
def Clock.latest : Nat :=
  Nat.pow 2 63 * 1000 - 1

def Clock.after? (moment time : Nat) : Option Nat :=
  if moment + time ≤ latest then some (moment + time) else none

def Clock.lift {m n : Type → Type} [MonadLift m n] (c : Clock m) : Clock n :=
  ⟨liftM c.now, fun time => liftM (c.sleep time)⟩

structure Process where
  thread : Nat
  origin : String
  calls : String → String
deriving Inhabited

structure Machine (m : Type → Type) where
  clock : Clock m
  process : Process
  read : Path → m (Except FileError Bytes)
  send : Http.Request → m (Except String Http.Response)

def unreachable : String := "network is unreachable"

end ClusterRegistration
