import ClusterRegistration.FileTree
import ClusterRegistration.Registration.Deadline
import ClusterRegistration.Registration.Target
import ClusterRegistration.Scenario.Rule
import ClusterRegistration.Store.Basic

/-!
This module contains scenarios: clusters that are stores, together with what goes wrong with them and
what others do to them in the meantime. Time passes only where something is waited for.
-/

namespace ClusterRegistration

open Registration

namespace Scenario

inductive Fault where
  | notFound
  | alreadyExists
  | lockPoisoned
  | io (reason : String)
  | hang
deriving DecidableEq, Repr, Inhabited

def Fault.error? (f : Fault) (c : Call) : Option Store.Error :=
  match f with
  | .notFound => some (.notFound (c.kind ++ " " ++ c.subject))
  | .alreadyExists => some (.alreadyExists (c.kind ++ " " ++ c.subject))
  | .lockPoisoned => some .lockPoisoned
  | .io reason => some (.io reason)
  | .hang => none

inductive Edit where
  | ask (store : String) (r : Request)
  | follow (store : String) (s : Script Unit)
  | replace (store : String) {k : Kind} (o : Object k)
  | issue (store : String) (item : ItemName) (data : Dictionary)
  | writeFile (path : Path) (content : Bytes)
  | removeFile (path : Path)

end Scenario

/--
A state of a scenario. Calls are listed from the last to the first.
-/
structure Scenario where
  stores : OrderedMap String Store
  clusters : List (Target × String)
  files : FileTree
  faults : List (Scenario.Rule Scenario.Fault)
  hooks : List (Scenario.Rule Scenario.Edit)
  calls : List Scenario.Call
  now : Nat

namespace Scenario

abbrev Run := StateM Scenario

def clock : Clock Run where
  now := do return (← get).now
  sleep time := modify fun s => { s with now := s.now + time }

def store (s : Scenario) (name : String) : Store :=
  (s.stores.get? name).getD Store.empty

def putStore (s : Scenario) (name : String) (store : Store) : Scenario :=
  { s with stores := s.stores.insert name store }

def mention (s : Scenario) (name : String) : Scenario :=
  s.putStore name (s.store name)

def start (clusters : List (Target × String)) (files : FileTree) : Scenario :=
  clusters.foldl (fun s c => s.mention c.2)
    { stores := OrderedMap.empty, clusters := clusters, files := files, faults := [], hooks := [],
      calls := [], now := 0 }

def storeOf? (s : Scenario) (t : Target) : Option String :=
  (s.clusters.find? (fun c => c.1.same t)).map (·.2)

def askStore (name : String) (r : Request) : Run (Except Store.Error r.Answer) := do
  let s ← get
  let (answer, store) := (s.store name).answer r
  set (s.putStore name store)
  return answer

def change {α : Type} (name : String) (f : Store → Except Store.Error (α × Store)) :
    Run (Except Store.Error α) := do
  let s ← get
  match f (s.store name) with
  | .ok (a, store) =>
    set (s.putStore name store)
    return .ok a
  | .error e =>
    set (s.mention name)
    return .error e

def performOn (ask : (r : Request) → Run (Option (Except Store.Error r.Answer))) :
    (a : Action) → Run (Option a.Outcome)
  | .connect _ _ => pure (some (.ok ()))
  | .ask _ _ r => do
    match ← ask r with
    | some (.ok a) => return some (.ok a)
    | some (.error e) => return some (.error (.store e))
    | none => return none

def Edit.apply : Edit → Run Unit
  | .ask store r => do let _ ← askStore store r
  | .follow store script => do
    let _ ← script.run clock Deadline.never (performOn (fun r => some <$> askStore store r))
  | .replace store o => do let _ ← change store (·.replace o)
  | .issue store item data => do let _ ← change store (·.issue item data)
  | .writeFile path content => modify fun s => { s with files := s.files.insert path (.file content) }
  | .removeFile path => modify fun s => { s with files := s.files.erase path }

def announce (c : Call) : Run (Option Fault) := do
  modify fun s => { s with calls := c :: s.calls }
  let (edits, hooks) := Rule.every c (← get).hooks
  modify fun s => { s with hooks := hooks }
  edits.forM Edit.apply
  let (fault, faults) := Rule.first c (← get).faults
  modify fun s => { s with faults := faults }
  return fault

def callOf (store : String) : Request → Call
  | .get k item => ⟨store, "get", k.label, item.ns ++ "/" ++ item.name⟩
  | .list k .all => ⟨store, "list", k.label, "all"⟩
  | .list k (.inNamespace ns) => ⟨store, "list", k.label, ns⟩
  | .create k input => ⟨store, "create", k.label, input.metadata.ns ++ "/" ++ input.metadata.name⟩

def call {α : Type} (c : Call) (go : Run (Except Store.Error α)) :
    Run (Option (Except Store.Error α)) := do
  match ← announce c with
  | none => some <$> go
  | some fault => return (fault.error? c).map .error

def ask (name : String) (r : Request) : Run (Option (Except Store.Error r.Answer)) := do
  modify (·.mention name)
  call (callOf name r) (askStore name r)

end Scenario

end ClusterRegistration
