import ClusterRegistration.Registration.Polling
import ClusterRegistration.Registration.Servers
import ClusterRegistration.Scenario.Basic

namespace ClusterRegistration.Scenario

open Registration

inductive Connector where
  | stores
  | servers
deriving DecidableEq, Repr, Inhabited

def connectStore (t : Target) : Run (Option (Except ClusterError Unit)) := do
  let answer ← call ⟨"-", "connect", "-", t.text⟩ do
    match (← get).storeOf? t with
    | some _ => return .ok ()
    | none => return .error (.io "unknown cluster")
  return answer.map (fun r => r.mapError ClusterError.store)

def readFile (p : Path) : Run (Except FileError Bytes) := do
  return (← get).files.read p

def machine : Machine Run where
  clock := clock
  process := default
  read := readFile
  send _ := pure (.error unreachable)

def perform (ends : Side → Target) : (a : Action) → Run (Option a.Outcome)
  | .connect _ t => connectStore t
  | .ask side _ r => do
    match (← get).storeOf? (ends side) with
    | some name => return (← ask name r).map (·.mapError ClusterError.store)
    | none => return some (.error (.io unreachable))

def followOn {α : Type} (store : String) (deadline : Deadline) (s : Script α) :
    Run (Except Registration.Error α) := do
  modify (·.mention store)
  s.run clock deadline (performOn (ask store))

def register (connector : Connector) (c : Config) (deadline : Deadline) :
    Run (Except Registration.Error Unit) := do
  match connector with
  | .stores =>
    let content ← readFile c.source.kubeconfig
    (c.attempt content).run clock deadline (perform c.target)
  | .servers => registerServers machine c deadline

def poll (connector : Connector) (c : Config) (p : Polling) :
    Run (Option (Except Registration.Error Unit)) :=
  p.run clock (register connector c p.deadline)

end ClusterRegistration.Scenario
