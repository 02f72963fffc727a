import ClusterRegistration.Kubeconfig.File
import ClusterRegistration.Registration.Error
import ClusterRegistration.Registration.Target
import ClusterRegistration.Text.Blank
import ClusterRegistration.Uri

namespace ClusterRegistration.Registration

inductive EndpointFault where
  | uri (e : Uri.Error)
  | notSecure
  | missingScheme
  | missingHost
deriving DecidableEq, Repr

def EndpointFault.message : EndpointFault → String
  | .uri e => e.message
  | .notSecure => "scheme must be https"
  | .missingScheme => "missing scheme"
  | .missingHost => "missing host"

def endpointFault? (server : String) : Option EndpointFault :=
  match Uri.parse server with
  | .error e => some (.uri e)
  | .ok uri =>
    match uri.scheme with
    | none => some .missingScheme
    | some scheme =>
      if scheme != "https" then some .notSecure
      else if uri.host.isEmpty then some .missingHost
      else none

def validateEndpoint (context server : String) : Except Error Unit :=
  match endpointFault? server with
  | none => .ok ()
  | some fault => .error (.invalidEndpoint context server fault.message)

def resolveHost (target : Target) (content : Except FileError Bytes) : Except Error String :=
  match Kubeconfig.ofFile target.kubeconfig content >>= (·.resolve target.context) with
  | .error e => .error (.config e)
  | .ok resolved => do
    let server := Text.trim resolved.cluster.server
    validateEndpoint target.context server
    pure server

end ClusterRegistration.Registration
