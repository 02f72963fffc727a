import ClusterRegistration.Client.Address
import ClusterRegistration.Client.Error
import ClusterRegistration.Object.Basic
import ClusterRegistration.Store.Error

namespace ClusterRegistration

inductive Request where
  | get (k : Kind) (item : ItemName)
  | list (k : Kind) (scope : Scope)
  | create (k : Kind) (input : ObjectInput k)

def Request.Answer : Request → Type
  | .get k _ => Object k
  | .list k _ => ObjectList k
  | .create k _ => Object k

inductive ClusterError where
  | client (e : Client.Error)
  | store (e : Store.Error)
  | io (reason : String)
deriving DecidableEq, Repr

namespace ClusterError

def messageWith (yaml : Yaml.Error → String) : ClusterError → String
  | .client e => e.messageWith yaml
  | .store e => e.message
  | .io reason => reason

def isNotFound : ClusterError → Bool
  | .client e => e.isNotFound
  | .store e => e.isNotFound
  | .io _ => false

def isAlreadyExists : ClusterError → Bool
  | .client e => e.isAlreadyExists
  | .store e => e.isAlreadyExists
  | .io _ => false

def existence {α : Type} : Except ClusterError α → Except ClusterError Bool
  | .ok _ => .ok true
  | .error e => if e.isNotFound then .ok false else .error e

def unlessExists {α : Type} : Except ClusterError α → Except ClusterError (Option α)
  | .ok a => .ok (some a)
  | .error e => if e.isAlreadyExists then .ok none else .error e

end ClusterError

end ClusterRegistration
