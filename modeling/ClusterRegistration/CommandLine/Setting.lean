namespace ClusterRegistration.CommandLine

inductive Setting where
  | sourceKubeconfig
  | destKubeconfig
  | sourceContext
  | destContext
  | sourceNamespace
  | destNamespace
  | serviceAccount
  | destName
  | timeout
  | pollInterval
deriving DecidableEq, Repr, Inhabited

namespace Setting

def all : List Setting :=
  [sourceKubeconfig, destKubeconfig, sourceContext, destContext, sourceNamespace, destNamespace,
    serviceAccount, destName, timeout, pollInterval]

def option : Setting → String
  | sourceKubeconfig => "source-kubeconfig"
  | destKubeconfig => "dest-kubeconfig"
  | sourceContext => "source-context"
  | destContext => "dest-context"
  | sourceNamespace => "source-namespace"
  | destNamespace => "dest-namespace"
  | serviceAccount => "serviceaccount"
  | destName => "dest-name"
  | timeout => "timeout"
  | pollInterval => "poll-interval"

def placeholder : Setting → String
  | sourceKubeconfig => "SOURCE_KUBECONFIG"
  | destKubeconfig => "DEST_KUBECONFIG"
  | sourceContext => "SOURCE_CONTEXT"
  | destContext => "DEST_CONTEXT"
  | sourceNamespace => "SOURCE_NAMESPACE"
  | destNamespace => "DEST_NAMESPACE"
  | serviceAccount => "SERVICE_ACCOUNT"
  | destName => "DEST_NAME"
  | timeout => "TIMEOUT"
  | pollInterval => "POLL_INTERVAL"

def text (s : Setting) : String :=
  "--" ++ s.option ++ " <" ++ s.placeholder ++ ">"

def summary? : Setting → Option String
  | sourceKubeconfig =>
    some "kubeconfig of source cluster, defaults to $KUBECONFIG or ~/.kube/config"
  | destKubeconfig =>
    some "kubeconfig of destination cluster, defaults to $KUBECONFIG or ~/.kube/config"
  | sourceContext => none
  | destContext => none
  | sourceNamespace => some "namespace where service account is created"
  | destNamespace => some "namespace where kubeconfig secret and client config are published"
  | serviceAccount => none
  | destName => some "defaults to source context"
  | timeout => some "overall timeout in seconds"
  | pollInterval => some "delay between attempts in milliseconds"

def environmentName? : Setting → Option String
  | sourceContext => some "SOURCE_CONTEXT"
  | destContext => some "DEST_CONTEXT"
  | _ => none

def default? : Setting → Option String
  | sourceNamespace => some "k8ssandra-operator"
  | destNamespace => some "k8ssandra-operator"
  | serviceAccount => some "k8ssandra-operator"
  | timeout => some "60"
  | pollInterval => some "1000"
  | _ => none

def isRequired : Setting → Bool
  | sourceContext => true
  | destContext => true
  | _ => false

def isNumber : Setting → Bool
  | timeout => true
  | pollInterval => true
  | _ => false

def isPath : Setting → Bool
  | sourceKubeconfig => true
  | destKubeconfig => true
  | _ => false

end Setting

inductive NumberFault where
  | empty
  | invalidDigit
  | tooLarge
deriving DecidableEq, Repr, Inhabited

def NumberFault.message : NumberFault → String
  | .empty => "cannot parse integer from empty string"
  | .invalidDigit => "invalid digit found in string"
  | .tooLarge => "number too large to fit in target type"

def readDigits (value : Nat) : List Char → Except NumberFault Nat
  | [] => .ok value
  | c :: cs =>
    if !c.isDigit then .error .invalidDigit
    else
      let value := value * 10 + (c.toNat - '0'.toNat)
      if value < Nat.pow 2 64 then readDigits value cs else .error .tooLarge

def readNumber (s : String) : Except NumberFault Nat :=
  match s.toList with
  | [] => .error .empty
  | ['+'] => .error .invalidDigit
  | '+' :: cs => readDigits 0 cs
  | cs => readDigits 0 cs

end ClusterRegistration.CommandLine
