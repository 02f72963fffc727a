import ClusterRegistration.Kubeconfig.File
import ClusterRegistration.Registration.Descriptor
import ClusterRegistration.Registration.Script

namespace ClusterRegistration.Registration

def kubeconfigKey : String := "kubeconfig"

structure Publication where
  ns : String
  name : String
deriving DecidableEq, Repr, Inhabited

namespace Publication

def secretInput (p : Publication) (descriptor : Kubeconfig) : ObjectInput .secret :=
  let payload := base64Text (Text.Utf8.encode descriptor.toYaml)
  let header : SecretHeader := ⟨OrderedMap.ofList [(kubeconfigKey, payload)], SecretHeader.opaqueType⟩
  .new (InputMeta.named p.name p.ns) () header

def clientConfigInput (p : Publication) : ObjectInput .clientConfig :=
  .new (InputMeta.named p.name p.ns) (ClientConfigSpec.forSecret p.name)

def publishSecret (p : Publication) (descriptor : Kubeconfig) : Script Unit :=
  Script.createIfAbsent .destination "create kubeconfig secret" (p.secretInput descriptor)

def publishClientConfig (p : Publication) : Script Unit :=
  Script.createIfAbsent .destination "create client config" p.clientConfigInput

end Publication

end ClusterRegistration.Registration
