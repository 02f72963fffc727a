import ClusterRegistration.CommandLine.Arguments
import ClusterRegistration.Kubeconfig.File
import ClusterRegistration.Registration.Name
import ClusterRegistration.Registration.Polling
import ClusterRegistration.Registration.Servers

namespace ClusterRegistration.CommandLine

open Registration

structure Outcome where
  exitCode : Nat
  stdout : String := ""
  stderr : String := ""
deriving DecidableEq, Repr, Inhabited

structure Breakdown where
  place : String
  message : String
deriving DecidableEq, Repr

namespace Breakdown

def clockOverflow : Breakdown :=
  ⟨"src/k8-register/src/bin/kubectl-register.rs:91:28", "overflow when adding duration to instant"⟩

def attemptsOverflow : Breakdown :=
  ⟨"src/k8-register/src/executor.rs:105:13", "attempt to add with overflow"⟩

def text (b : Breakdown) (process : Process) (style? : Option String) : String :=
  "\nthread 'main' (" ++ toString process.thread ++ ") panicked at " ++ process.origin ++ b.place ++ ":\n" ++
    b.message ++ "\n" ++
    match style? with
    | none | some "0" =>
      "note: run with `RUST_BACKTRACE=1` environment variable to display a backtrace\n"
    | some style => process.calls style

def outcome (b : Breakdown) (process : Process) (environment : String → Option String) : Outcome :=
  { exitCode := 101, stderr := b.text process (environment "RUST_BACKTRACE") }

end Breakdown

inductive Obstacle where
  | kubeconfig (e : Kubeconfig.Error)
  | noName
  | breakdown (b : Breakdown)
deriving DecidableEq, Repr

structure Job where
  config : Config
  polling : Polling
deriving DecidableEq, Repr, Inhabited

def valueOf (values : List (Setting × String)) (s : Setting) : String :=
  (values.lookup s).getD ((s.default?).getD "")

def numberOf (values : List (Setting × String)) (s : Setting) : Nat :=
  (readNumber (valueOf values s)).toOption.getD 0

def kubeconfigOf (environment : Kubeconfig.Environment) (values : List (Setting × String))
    (s : Setting) : Except Obstacle Path :=
  match values.lookup s with
  | some path => .ok ⟨path⟩
  | none => environment.defaultPath.mapError .kubeconfig

def nameOf (values : List (Setting × String)) : Except Obstacle String :=
  let name := (values.lookup .destName).getD (defaultName (valueOf values .sourceContext))
  if name.isEmpty then .error .noName else .ok name

def configOf (environment : Kubeconfig.Environment) (values : List (Setting × String)) :
    Except Obstacle Config := do
  let source ← kubeconfigOf environment values .sourceKubeconfig
  let destination ← kubeconfigOf environment values .destKubeconfig
  let name ← nameOf values
  pure
    { source := ⟨source, valueOf values .sourceContext⟩
      destination := ⟨destination, valueOf values .destContext⟩
      identity := ⟨valueOf values .sourceNamespace, valueOf values .serviceAccount⟩
      publication := ⟨valueOf values .destNamespace, name⟩ }

def pollingUntil (values : List (Setting × String)) (moment : Nat) : Polling :=
  ⟨numberOf values .pollInterval, ⟨some moment⟩⟩

variable {m : Type → Type} [Monad m]

def jobOf (clock : Clock m) (environment : Kubeconfig.Environment) (values : List (Setting × String)) :
    m (Except Obstacle Job) :=
  match configOf environment values with
  | .error o => pure (.error o)
  | .ok config => do
    match Clock.after? (← clock.now) (numberOf values .timeout * 1000) with
    | some moment => return .ok ⟨config, pollingUntil values moment⟩
    | none => return .error (.breakdown .clockOverflow)

def Obstacle.outcome (process : Process) (environment : String → Option String) : Obstacle → Outcome
  | .kubeconfig e => { exitCode := 1, stderr := "invalid arguments: " ++ e.message ++ "\n" }
  | .noName =>
    { exitCode := 1
      stderr := "invalid arguments: --dest-name is required, source context has no usable name\n" }
  | .breakdown b => b.outcome process environment

def outcomeOf : Except Error Unit → Outcome
  | .ok () => { exitCode := 0, stdout := "cluster registered\n" }
  | .error e => { exitCode := 1, stderr := "registration failed: " ++ e.message ++ "\n" }

/--
Register a cluster. More attempts than can be counted break the program down.
-/
def work (machine : Machine m) (environment : String → Option String) (job : Job) : m Outcome := do
  let attempt := registerServers machine job.config job.polling.deadline
  match ← job.polling.run machine.clock attempt with
  | some result => pure (outcomeOf result)
  | none => pure (Breakdown.attemptsOverflow.outcome machine.process environment)

def run (machine : Machine m) (environment : String → Option String) (arguments : List String) :
    m Outcome := do
  match interpret environment arguments with
  | .error e => pure { exitCode := 2, stderr := e.message }
  | .ok .help => pure { exitCode := 0, stdout := help environment }
  | .ok .version => pure { exitCode := 0, stdout := versionText }
  | .ok (.run values) =>
    let kubeconfigs : Kubeconfig.Environment := ⟨environment "KUBECONFIG", environment "HOME"⟩
    match ← jobOf machine.clock kubeconfigs values with
    | .ok job => work machine environment job
    | .error obstacle => pure (obstacle.outcome machine.process environment)

end ClusterRegistration.CommandLine
