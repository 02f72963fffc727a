import ClusterRegistration.Yaml.Error

namespace ClusterRegistration

namespace Kubeconfig

inductive Error where
  | io (reason : String)
  | yaml (e : Yaml.Error)
  | noHomeDirectory
  | noCurrentContext
  | contextNotFound (context : String)
  | clusterNotFound (context cluster : String)
  | userNotFound (context user : String)
deriving DecidableEq, Repr

def Error.messageWith (yaml : Yaml.Error → String) : Error → String
  | .io reason => "IO error: " ++ reason
  | .yaml e => "Yaml error: " ++ yaml e
  | .noHomeDirectory => "No home directory to locate kubeconfig"
  | .noCurrentContext => "No active Kubernetes context"
  | .contextNotFound context => "Context '" ++ context ++ "' not found in kubeconfig"
  | .clusterNotFound context cluster =>
    "Cluster '" ++ cluster ++ "' referenced by context '" ++ context ++ "' not found"
  | .userNotFound context user =>
    "User '" ++ user ++ "' referenced by context '" ++ context ++ "' not found"

def Error.message (e : Error) : String :=
  e.messageWith Yaml.Error.message

end Kubeconfig

end ClusterRegistration
