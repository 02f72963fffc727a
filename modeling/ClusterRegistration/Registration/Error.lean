import ClusterRegistration.Client.Request

namespace ClusterRegistration.Registration

inductive Error where
  | selfRegistration (kubeconfig context : String)
  | identityNotReady (name ns : String)
  | noCredential (name ns : String)
  | invalidEndpoint (context server reason : String)
  | malformedCredential (secret reason : String)
  | config (e : Kubeconfig.Error)
  | connect (target : String) (source : ClusterError)
  | api (operation : String) (source : ClusterError)
  | deadlineExceeded (operation : String)
  | timeout (attempts : Nat) (last : Error)
deriving Repr, Inhabited

namespace Error

def messageWith (yaml : Yaml.Error → String) : Error → String
  | .selfRegistration kubeconfig context =>
    "source and destination use same kubeconfig " ++ kubeconfig ++ " and context " ++ context ++
      ", a cluster can not be registered to itself"
  | .identityNotReady name ns =>
    "service account " ++ name ++ " in " ++ ns ++ " was just created and has no token yet"
  | .noCredential name ns => "no secret found for service account " ++ name ++ " in " ++ ns
  | .invalidEndpoint context server reason =>
    "invalid server endpoint '" ++ server ++ "' for context " ++ context ++ ": " ++ reason
  | .malformedCredential secret reason =>
    "malformed credential in secret " ++ secret ++ ": " ++ reason
  | .config e => "kubeconfig: " ++ e.messageWith yaml
  | .connect target source => "unable to connect to " ++ target ++ ": " ++ source.messageWith yaml
  | .api operation source => operation ++ " failed: " ++ source.messageWith yaml
  | .deadlineExceeded operation => "deadline exceeded during " ++ operation
  | .timeout attempts last =>
    "timed out after " ++ toString attempts ++ " attempts: " ++ last.messageWith yaml

def message (e : Error) : String :=
  e.messageWith Yaml.Error.message

def isRecoverable : Error → Bool
  | .identityNotReady _ _ => true
  | .noCredential _ _ => true
  | .connect _ _ => true
  | .api _ _ => true
  | .deadlineExceeded _ => true
  | _ => false

def isPending : Error → Bool
  | .identityNotReady _ _ => true
  | .noCredential _ _ => true
  | _ => false

end Error

end ClusterRegistration.Registration
