import ClusterRegistration.FileTree
import ClusterRegistration.Json.Basic
import ClusterRegistration.Kubeconfig.Error
import ClusterRegistration.Record.Source

namespace ClusterRegistration

open Record

structure Named (α : Type) where
  name : String
  detail : α
deriving DecidableEq, Repr, Inhabited

structure ClusterDetail where
  insecureSkipTlsVerify : Option Bool := none
  certificateAuthority : Option String := none
  certificateAuthorityData : Option String := none
  server : String
deriving DecidableEq, Repr, Inhabited

structure ContextDetail where
  cluster : String
  user : String
  ns : Option String := none
deriving DecidableEq, Repr, Inhabited

structure ExecCommand where
  apiVersion : String
  args : List String
  command : String
deriving DecidableEq, Repr, Inhabited

structure UserDetail where
  clientCertificate : Option String := none
  clientKey : Option String := none
  clientCertificateData : Option String := none
  clientKeyData : Option String := none
  exec : Option ExecCommand := none
  token : Option String := none
  username : Option String := none
  password : Option String := none
deriving DecidableEq, Repr, Inhabited

abbrev Cluster := Named ClusterDetail

abbrev Context := Named ContextDetail

abbrev User := Named UserDetail

structure Kubeconfig where
  path : Path := ⟨""⟩
  apiVersion : String := "v1"
  clusters : List Cluster := []
  contexts : List Context := []
  currentContext : String := ""
  kind : String := "Config"
  users : List User := []
deriving DecidableEq, Repr

section Reading

variable {ν : Type} {m : Type → Type} [Monad m] [Source ν m]

def optionalMember {α : Type} (key : String) (write : α → Json) : Option α → List (String × Json)
  | none => []
  | some a => [(key, write a)]

namespace Named

def read {α : Type} [Inhabited α] (record key : String) (detail : ν → m α) : ν → m (Named α) :=
  Source.record record [
    .required "name" Source.text (fun s r => { r with name := s }),
    .required key detail (fun d r => { r with detail := d })] default

def toJson {α : Type} (key : String) (detail : α → Json) (n : Named α) : Json :=
  .object [("name", .text n.name), (key, detail n.detail)]

end Named

namespace ClusterDetail

def read : ν → m ClusterDetail :=
  Source.record "ClusterDetail" [
    .optional "insecure-skip-tls-verify" Source.flag
      (fun b r => { r with insecureSkipTlsVerify := b }),
    .optional "certificate-authority" Source.text (fun s r => { r with certificateAuthority := s }),
    .optional "certificate-authority-data" Source.text
      (fun s r => { r with certificateAuthorityData := s }),
    .required "server" Source.text (fun s r => { r with server := s })] default

def toJson (d : ClusterDetail) : Json :=
  .object (
    optionalMember "insecure-skip-tls-verify" .flag d.insecureSkipTlsVerify ++
    optionalMember "certificate-authority" .text d.certificateAuthority ++
    optionalMember "certificate-authority-data" .text d.certificateAuthorityData ++
    [("server", .text d.server)])

end ClusterDetail

namespace ContextDetail

def read : ν → m ContextDetail :=
  Source.record "ContextDetail" [
    .required "cluster" Source.text (fun s r => { r with cluster := s }),
    .required "user" Source.text (fun s r => { r with user := s }),
    .optional "namespace" Source.text (fun s r => { r with ns := s })] default

def toJson (d : ContextDetail) : Json :=
  .object ([("cluster", .text d.cluster), ("user", .text d.user)] ++
    optionalMember "namespace" .text d.ns)

def defaultNamespace : String := "default"

def namespaceName (d : ContextDetail) : String :=
  d.ns.getD defaultNamespace

end ContextDetail

namespace ExecCommand

def read : ν → m ExecCommand :=
  Source.record "Exec" [
    .required "apiVersion" Source.text (fun s r => { r with apiVersion := s }),
    .defaulted "args" (Source.list Source.text) (fun l r => { r with args := l }),
    .required "command" Source.text (fun s r => { r with command := s })] default

def toJson (e : ExecCommand) : Json :=
  .object [
    ("apiVersion", .text e.apiVersion),
    ("args", .array (e.args.map .text)),
    ("command", .text e.command)]

end ExecCommand

namespace UserDetail

def read : ν → m UserDetail :=
  Source.record "UserDetail" [
    .optional "client-certificate" Source.text (fun s r => { r with clientCertificate := s }),
    .optional "client-key" Source.text (fun s r => { r with clientKey := s }),
    .optional "client-certificate-data" Source.text
      (fun s r => { r with clientCertificateData := s }),
    .optional "client-key-data" Source.text (fun s r => { r with clientKeyData := s }),
    .optional "exec" ExecCommand.read (fun e r => { r with exec := e }),
    .optional "token" Source.text (fun s r => { r with token := s }),
    .optional "username" Source.text (fun s r => { r with username := s }),
    .optional "password" Source.text (fun s r => { r with password := s })] default

def toJson (d : UserDetail) : Json :=
  .object (
    optionalMember "client-certificate" .text d.clientCertificate ++
    optionalMember "client-key" .text d.clientKey ++
    optionalMember "client-certificate-data" .text d.clientCertificateData ++
    optionalMember "client-key-data" .text d.clientKeyData ++
    optionalMember "exec" ExecCommand.toJson d.exec ++
    optionalMember "token" .text d.token ++
    optionalMember "username" .text d.username ++
    optionalMember "password" .text d.password)

end UserDetail

def Cluster.read : ν → m Cluster :=
  Named.read "Cluster" "cluster" ClusterDetail.read

def Cluster.toJson : Cluster → Json :=
  Named.toJson "cluster" ClusterDetail.toJson

def Context.read : ν → m Context :=
  Named.read "Context" "context" ContextDetail.read

def Context.toJson : Context → Json :=
  Named.toJson "context" ContextDetail.toJson

def User.read : ν → m User :=
  Named.read "User" "user" UserDetail.read

def User.toJson : User → Json :=
  Named.toJson "user" UserDetail.toJson

namespace Kubeconfig

def blank : Kubeconfig :=
  { apiVersion := "", kind := "" }

instance : Inhabited Kubeconfig :=
  ⟨blank⟩

def read : ν → m Kubeconfig :=
  Source.record "KubeConfig" [
    .required "apiVersion" Source.text (fun s r => { r with apiVersion := s }),
    .defaulted "clusters" (Source.list Cluster.read) (fun l r => { r with clusters := l }),
    .defaulted "contexts" (Source.list Context.read) (fun l r => { r with contexts := l }),
    .defaulted "current-context" Source.text (fun s r => { r with currentContext := s }),
    .required "kind" Source.text (fun s r => { r with kind := s }),
    .defaulted "users" (Source.list User.read) (fun l r => { r with users := l })] blank

def toJson (c : Kubeconfig) : Json :=
  .object [
    ("apiVersion", .text c.apiVersion),
    ("clusters", .array (c.clusters.map Cluster.toJson)),
    ("contexts", .array (c.contexts.map Context.toJson)),
    ("current-context", .text c.currentContext),
    ("kind", .text c.kind),
    ("users", .array (c.users.map User.toJson))]

end Kubeconfig

end Reading

namespace Named

variable {α : Type}

def find? (name : String) (entries : List (Named α)) : Option (Named α) :=
  entries.find? (·.name = name)

def put (entry : Named α) : List (Named α) → Option (Named α) × List (Named α)
  | [] => (none, [entry])
  | e :: es =>
    if e.name = entry.name then (some e, entry :: es)
    else
      let (previous, es) := put entry es
      (previous, e :: es)

end Named

namespace Kubeconfig

def new : Kubeconfig := {}

def cluster? (c : Kubeconfig) (name : String) : Option Cluster :=
  Named.find? name c.clusters

def context? (c : Kubeconfig) (name : String) : Option Context :=
  Named.find? name c.contexts

def user? (c : Kubeconfig) (name : String) : Option User :=
  Named.find? name c.users

def putCluster (c : Kubeconfig) (cluster : Cluster) : Option Cluster × Kubeconfig :=
  let (previous, clusters) := Named.put cluster c.clusters
  (previous, { c with clusters := clusters })

def putContext (c : Kubeconfig) (context : Context) : Option Context × Kubeconfig :=
  let (previous, contexts) := Named.put context c.contexts
  (previous, { c with contexts := contexts })

def putUser (c : Kubeconfig) (user : User) : Option User × Kubeconfig :=
  let (previous, users) := Named.put user c.users
  (previous, { c with users := users })

structure Resolved where
  name : String
  ns : String
  cluster : ClusterDetail
  user : UserDetail
deriving DecidableEq, Repr

def resolve (c : Kubeconfig) (name : String) : Except Error Resolved :=
  match c.context? name with
  | none => .error (.contextNotFound name)
  | some context =>
    match c.cluster? context.detail.cluster with
    | none => .error (.clusterNotFound name context.detail.cluster)
    | some cluster =>
      match c.user? context.detail.user with
      | none => .error (.userNotFound name context.detail.user)
      | some user =>
        .ok ⟨context.name, context.detail.namespaceName, cluster.detail, user.detail⟩

def resolveCurrent (c : Kubeconfig) : Except Error Resolved :=
  if c.currentContext.isEmpty then .error .noCurrentContext else c.resolve c.currentContext

end Kubeconfig

end ClusterRegistration
