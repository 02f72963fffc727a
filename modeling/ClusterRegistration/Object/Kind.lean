import ClusterRegistration.Object.Metadata

namespace ClusterRegistration

open Record Json

variable {ν : Type} {m : Type → Type} [Monad m] [ValueSource ν m]

/--
How a kind is addressed. Kinds with equal definitions share their objects.
-/
structure Definition where
  group : String
  version : String
  kind : String
  plural : String
  singular : String
deriving DecidableEq, Repr, Inhabited

def Definition.apiVersion (d : Definition) : String :=
  if d.group = "core" then d.version else d.group ++ "/" ++ d.version

structure ClientConfigSpec where
  contextName : String
  secret : LocalReference
deriving DecidableEq, Repr, Inhabited

namespace ClientConfigSpec

def read : ν → m ClientConfigSpec :=
  Source.record "ClientConfigSpec" [
    .defaulted "contextName" Source.text (fun s r => { r with contextName := s }),
    .required "kubeConfigSecret" LocalReference.read (fun s r => { r with secret := s })] default

def toJson (r : ClientConfigSpec) : Json :=
  .object [("contextName", .text r.contextName), ("kubeConfigSecret", r.secret.toJson)]

def forSecret (name : String) : ClientConfigSpec :=
  ⟨name, ⟨name⟩⟩

end ClientConfigSpec

structure NodeSpec where
  unschedulable : Bool
deriving DecidableEq, Repr, Inhabited

def NodeSpec.read : ν → m NodeSpec :=
  Source.record "NodeSpec"
    [.defaulted "unschedulable" Source.flag (fun b r => { r with unschedulable := b })] default

def NodeSpec.toJson (r : NodeSpec) : Json :=
  .object [("unschedulable", .flag r.unschedulable)]

structure StrictNodeSpec where
  podCidr : String
deriving DecidableEq, Repr, Inhabited

def StrictNodeSpec.read : ν → m StrictNodeSpec :=
  Source.record "StrictNodeSpec"
    [.required "podCidr" Source.text (fun s r => { r with podCidr := s })] default

def StrictNodeSpec.toJson (r : StrictNodeSpec) : Json :=
  .object [("podCidr", .text r.podCidr)]

structure WidgetSpec where
  size : Int
  tags : List String
deriving DecidableEq, Repr, Inhabited

def WidgetSpec.read : ν → m WidgetSpec :=
  Source.record "WidgetSpec" [
    .defaulted "size" (ValueSource.integer (-9223372036854775808) 9223372036854775807 "i64")
      (fun i r => { r with size := i }),
    .defaulted "tags" (Source.list Source.text) (fun l r => { r with tags := l })] default

def WidgetSpec.toJson (r : WidgetSpec) : Json :=
  .object [("size", Json.integer r.size), ("tags", .array (r.tags.map .text))]

structure WidgetStatus where
  phase : String
deriving DecidableEq, Repr, Inhabited

def WidgetStatus.read : ν → m WidgetStatus :=
  Source.record "WidgetStatus"
    [.defaulted "phase" Source.text (fun s r => { r with phase := s })] default

def WidgetStatus.toJson (r : WidgetStatus) : Json :=
  .object [("phase", .text r.phase)]

structure CredentialStatus where
  expirationTimestamp : String
  token : String
deriving DecidableEq, Repr, Inhabited

def CredentialStatus.read : ν → m CredentialStatus :=
  Source.record "ExecCredentialStatus" [
    .defaulted "expirationTimestamp" Source.text (fun s r => { r with expirationTimestamp := s }),
    .defaulted "token" Source.text (fun s r => { r with token := s })] default

def CredentialStatus.toJson (r : CredentialStatus) : Json :=
  .object [("expirationTimestamp", .text r.expirationTimestamp), ("token", .text r.token)]

structure SecretHeader where
  data : Dictionary
  type : String
deriving DecidableEq, Inhabited

namespace SecretHeader

def read : ν → m SecretHeader :=
  Source.record "SecretHeader" [
    .defaulted "data" Dictionary.read (fun d r => { r with data := d }),
    .defaulted "type" Source.text (fun s r => { r with type := s })] default

def members (r : SecretHeader) : List (String × Json) :=
  [("data", r.data.toJson), ("type", .text r.type)]

def serviceAccountToken : String := "kubernetes.io/service-account-token"

def opaqueType : String := "Opaque"

def serviceAccountAnnotation : String := "kubernetes.io/service-account.name"

def typed (type : String) : SecretHeader :=
  { (default : SecretHeader) with type := type }

def isServiceAccountToken (r : SecretHeader) : Bool :=
  r.type = serviceAccountToken

end SecretHeader

structure ServiceAccountHeader where
  secrets : List LocalReference
deriving DecidableEq, Repr, Inhabited

namespace ServiceAccountHeader

def read : ν → m ServiceAccountHeader :=
  Source.record "ServiceAccountHeader"
    [.defaulted "secrets" (Source.list LocalReference.read) (fun l r => { r with secrets := l })]
    default

def members (r : ServiceAccountHeader) : List (String × Json) :=
  if r.secrets.isEmpty then [] else [("secrets", .array (r.secrets.map LocalReference.toJson))]

end ServiceAccountHeader

inductive Kind where
  | serviceAccount
  | secret
  | execCredential
  | clientConfig
  | node
  | strictNode
  | widget
deriving DecidableEq, Repr, Inhabited

namespace Kind

def all : List Kind :=
  [serviceAccount, secret, execCredential, clientConfig, node, strictNode, widget]

def definition : Kind → Definition
  | serviceAccount => ⟨"core", "v1", "ServiceAccount", "serviceaccounts", "serviceaccount"⟩
  | secret => ⟨"core", "v1", "Secret", "secrets", "secret"⟩
  | execCredential =>
    ⟨"client.authentication.k8s.io", "v1", "ExecCredential", "credentials", "credential"⟩
  | clientConfig =>
    ⟨"config.k8ssandra.io", "v1beta1", "ClientConfig", "clientconfigs", "clientconfig"⟩
  | node => ⟨"core", "v1", "Node", "nodes", "node"⟩
  | strictNode => ⟨"core", "v1", "Node", "nodes", "node"⟩
  | widget => ⟨"test.com", "v1alpha1", "Widget", "widgets", "widget"⟩

def label (k : Kind) : String :=
  k.definition.kind

def apiVersion (k : Kind) : String :=
  k.definition.apiVersion

def isNamespaced : Kind → Bool
  | node => false
  | strictNode => false
  | _ => true

def Spec : Kind → Type
  | clientConfig => ClientConfigSpec
  | node => NodeSpec
  | strictNode => StrictNodeSpec
  | widget => WidgetSpec
  | _ => Unit

def Header : Kind → Type
  | serviceAccount => ServiceAccountHeader
  | secret => SecretHeader
  | _ => Unit

def Status : Kind → Type
  | execCredential => CredentialStatus
  | widget => WidgetStatus
  | _ => Unit

instance : (k : Kind) → Inhabited k.Spec
  | serviceAccount | secret | execCredential => ⟨()⟩
  | clientConfig => inferInstanceAs (Inhabited ClientConfigSpec)
  | node => inferInstanceAs (Inhabited NodeSpec)
  | strictNode => inferInstanceAs (Inhabited StrictNodeSpec)
  | widget => inferInstanceAs (Inhabited WidgetSpec)

instance : (k : Kind) → Inhabited k.Header
  | serviceAccount => inferInstanceAs (Inhabited ServiceAccountHeader)
  | secret => inferInstanceAs (Inhabited SecretHeader)
  | execCredential | clientConfig | node | strictNode | widget => ⟨()⟩

instance : (k : Kind) → Inhabited k.Status
  | execCredential => inferInstanceAs (Inhabited CredentialStatus)
  | widget => inferInstanceAs (Inhabited WidgetStatus)
  | serviceAccount | secret | clientConfig | node | strictNode => ⟨()⟩

def readSpec : (k : Kind) → ν → m k.Spec
  | serviceAccount => Source.record "ServiceAccountSpec" [] ()
  | secret => Source.record "SecretSpec" [] ()
  | execCredential => Source.record "ExecCredentialSpec" [] ()
  | clientConfig => ClientConfigSpec.read
  | node => NodeSpec.read
  | strictNode => StrictNodeSpec.read
  | widget => WidgetSpec.read

def specToJson : (k : Kind) → k.Spec → Json
  | serviceAccount | secret | execCredential => fun _ => .object []
  | clientConfig => ClientConfigSpec.toJson
  | node => NodeSpec.toJson
  | strictNode => StrictNodeSpec.toJson
  | widget => WidgetSpec.toJson

def readHeader : (k : Kind) → ν → m k.Header
  | serviceAccount => ServiceAccountHeader.read
  | secret => SecretHeader.read
  | execCredential | clientConfig | node | strictNode | widget =>
    Source.record "DefaultHeader" [] ()

def headerMembers : (k : Kind) → k.Header → List (String × Json)
  | serviceAccount => ServiceAccountHeader.members
  | secret => SecretHeader.members
  | execCredential | clientConfig | node | strictNode | widget => fun _ => []

def headerToJson (k : Kind) (header : k.Header) : Json :=
  .object (k.headerMembers header)

def readStatus : (k : Kind) → ν → m k.Status
  | serviceAccount => Source.record "ServiceAccountStatus" [] ()
  | secret => Source.record "SecretStatus" [] ()
  | execCredential => CredentialStatus.read
  | widget => WidgetStatus.read
  | clientConfig | node | strictNode => Source.record "NoStatus" [] ()

def statusToJson : (k : Kind) → k.Status → Json
  | execCredential => CredentialStatus.toJson
  | widget => WidgetStatus.toJson
  | serviceAccount | secret | clientConfig | node | strictNode => fun _ => .object []

end Kind

end ClusterRegistration
