import ClusterRegistration.Client.Connector
import ClusterRegistration.Registration.Attempt
import ClusterRegistration.Registration.Deadline
import ClusterRegistration.Registration.Remote

namespace ClusterRegistration.Registration

variable {m : Type → Type} [Monad m]

abbrev Sessions := Side → Client.Session

def Sessions.none : Sessions :=
  fun _ => default

def Sessions.put (s : Sessions) (side : Side) (session : Client.Session) : Sessions :=
  fun other => if other = side then session else s other

def performServers (machine : Machine m) : (a : Action) → StateT Sessions m (Option a.Outcome)
  | .connect side t => do
    let opened : m (Except Client.Error Client.Session) :=
      Client.openFile machine.read t.kubeconfig t.context
    match ← opened with
    | .ok session =>
      modify (fun s => Sessions.put s side session)
      return some (.ok ())
    | .error e => return some (.error (.client e))
  | .ask side operation r => do
    let sessions ← get
    let outcome : m (Option (Action.ask side operation r).Outcome) :=
      performRemote sessions machine.send (.ask side operation r)
    outcome

def registerServers (machine : Machine m) (c : Config) (deadline : Deadline) :
    m (Except Error Unit) := do
  let content ← machine.read c.source.kubeconfig
  let script := c.attempt content
  (script.run machine.clock.lift deadline (performServers machine)).run' Sessions.none

end ClusterRegistration.Registration
