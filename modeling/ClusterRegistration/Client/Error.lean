import ClusterRegistration.Json.Error
import ClusterRegistration.Kubeconfig.Error
import ClusterRegistration.Object.Status
import ClusterRegistration.Text.Base64
import ClusterRegistration.Uri

namespace ClusterRegistration.Client

inductive Error where
  | io (reason : String)
  | json (e : Json.Error)
  | invalidUri (e : Uri.Error)
  | invalidHeader
  | config (e : Kubeconfig.Error)
  | base64 (e : Text.Base64.DecodeError)
  | tls (reason : String)
  | status (s : ApiStatus)
  | other (reason : String)
deriving DecidableEq, Repr

namespace Error

def messageWith (yaml : Yaml.Error → String) : Error → String
  | .io reason => reason
  | .json e => e.message
  | .invalidUri e => "invalid uri: " ++ e.message
  | .invalidHeader => "InvalidHeaderValue"
  | .config e => e.messageWith yaml
  | .base64 e => "base64 decoding err: " ++ e.message
  | .tls reason => "tls: " ++ reason
  | .status s => "api error: " ++ s.text
  | .other reason => reason

def isNotFound : Error → Bool
  | .status s => s.isNotFound
  | _ => false

def isAlreadyExists : Error → Bool
  | .status s => s.isAlreadyExists
  | _ => false

end Error

end ClusterRegistration.Client
