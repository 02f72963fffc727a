import ClusterRegistration.Path

namespace ClusterRegistration.Registration

structure Target where
  kubeconfig : Path
  context : String
deriving DecidableEq, Repr, Inhabited

namespace Target

def text (t : Target) : String :=
  t.context ++ "@" ++ t.kubeconfig.text

def same (t u : Target) : Bool :=
  t.kubeconfig.same u.kubeconfig && t.context = u.context

end Target

end ClusterRegistration.Registration
