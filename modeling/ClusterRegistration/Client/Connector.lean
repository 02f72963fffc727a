import ClusterRegistration.Client.Exchange
import ClusterRegistration.Client.Tls
import ClusterRegistration.Kubeconfig.File

namespace ClusterRegistration.Client

variable {m : Type → Type} [Monad m] (read : Path → m (Except FileError Bytes))

def runCommand (c : ExecCommand) : m (Except FileError Command.Output) :=
  Command.run read c.command c.args

def configureFile (path : Path) (context : String) : m (Except Error Configuration) := do
  match Kubeconfig.ofFile path (← read path) with
  | .error e => pure (.error (.config e))
  | .ok config => configure (runCommand read) config context

def openFile (path : Path) (context : String) : m (Except Error Session) := do
  match ← configureFile read path context with
  | .error e => pure (.error e)
  | .ok c => return (← Tls.check read c).map (fun _ => c.session)

end ClusterRegistration.Client
