import ClusterRegistration.Record.Mismatch

namespace ClusterRegistration.Store

inductive Error where
  | io (reason : String)
  | json (m : Record.Mismatch)
  | lockPoisoned
  | notFound (label : String)
  | alreadyExists (label : String)
deriving DecidableEq, Repr

namespace Error

def message : Error → String
  | .io reason => "io: " ++ reason
  | .json m => m.message "null"
  | .lockPoisoned => "lock poison error"
  | .notFound label => label ++ " not found"
  | .alreadyExists label => label ++ " already exists"

def isNotFound : Error → Bool
  | .notFound _ => true
  | _ => false

def isAlreadyExists : Error → Bool
  | .alreadyExists _ => true
  | _ => false

end Error

end ClusterRegistration.Store
