import ClusterRegistration.Client.Exchange
import ClusterRegistration.Registration.Script

namespace ClusterRegistration.Registration

variable {m : Type → Type} [Monad m]

def performRemote (sessions : Side → Client.Session)
    (send : Http.Request → m (Except String Http.Response)) : (a : Action) → m (Option a.Outcome)
  | .connect _ _ => pure (some (.ok ()))
  | .ask side _ r => do
    match ← (sessions side).ask send r with
    | .ok a => pure (some (.ok a))
    | .error e => pure (some (.error (.client e)))

end ClusterRegistration.Registration
