import ClusterRegistration.Client.Error
import ClusterRegistration.Command.Shell
import ClusterRegistration.Json.Document
import ClusterRegistration.Kubeconfig.Basic
import ClusterRegistration.Object.Basic

/-!
This module contains the configuration of a client from a context of a kubeconfig: whom it trusts,
and what it identifies itself with.
-/

namespace ClusterRegistration.Client

inductive CaSource where
  | path (p : Path)
  | data (bytes : Bytes)
deriving DecidableEq, Repr, Inhabited

inductive Certificate where
  | paths (crt key : Path)
  | data (crt key : Bytes)
deriving DecidableEq, Repr, Inhabited

inductive Login where
  | exec (command : ExecCommand)
  | certificate (c : Certificate)
  | token (t : String)
deriving DecidableEq, Repr

structure Configuration where
  host : String
  ca : CaSource
  token : Option String
  certificate : Option Certificate
deriving DecidableEq, Repr, Inhabited

def decodeBase64 (s : String) : Except Error Bytes :=
  match Text.Base64.decode (Text.Utf8.encode s) with
  | .ok bytes => .ok bytes
  | .error e => .error (.base64 e)

def caSource (directory? : Option Path) (r : Kubeconfig.Resolved) : Except Error CaSource :=
  if r.cluster.insecureSkipTlsVerify = some true then
    .error (.other ("context " ++ r.name ++ ": insecure-skip-tls-verify is not supported"))
  else
    match r.cluster.certificateAuthorityData, r.cluster.certificateAuthority with
    | some data, _ => CaSource.data <$> decodeBase64 data
    | none, some path => .ok (.path (Path.relativeTo directory? ⟨path⟩))
    | none, none =>
      .error (.other ("context " ++ r.name ++ ": cluster must have CA crt path or data"))

/--
A command comes first, then a certificate as data, then one in files, and a token last. What comes
first decides, even if it fails.
-/
def login (directory? : Option Path) (user : UserDetail) : Except Error Login :=
  match user.exec, user.clientCertificateData, user.clientCertificate, user.token with
  | some command, _, _, _ => .ok (.exec command)
  | none, some crt, _, _ => do
    let crt ← decodeBase64 crt
    match user.clientKeyData with
    | some key => return .certificate (.data crt (← decodeBase64 key))
    | none => throw (.other "current user must have client key data")
  | none, none, some crt, _ =>
    match user.clientKey with
    | some key =>
      .ok (.certificate (.paths (Path.relativeTo directory? ⟨crt⟩) (Path.relativeTo directory? ⟨key⟩)))
    | none => .error (.other "current user must have client key")
  | none, none, none, some token => .ok (.token token)
  | none, none, none, none =>
    .error (.other "no client cert crt data, path or user token were found")

def tokenOf (output : Except FileError Command.Output) : Except Error String :=
  match output with
  | .error e => .error (.io e.message)
  | .ok o =>
    match Json.Reader.run (Object.read .execCredential ()) o.stdout with
    | .error e => .error (.json e)
    | .ok credential =>
      let status : CredentialStatus := credential.status
      .ok status.token

structure Plan where
  host : String
  ca : CaSource
  login : Login
deriving DecidableEq, Repr

def plan (config : Kubeconfig) (context : String) : Except Error Plan :=
  match config.resolve context with
  | .error e => .error (.config e)
  | .ok resolved => do
    let ca ← caSource config.path.parent? resolved
    let login ← login config.path.parent? resolved.user
    pure ⟨resolved.cluster.server, ca, login⟩

section Running

variable {m : Type → Type} [Monad m]
  (run : ExecCommand → m (Except FileError Command.Output))

def Plan.carryOut (p : Plan) : m (Except Error Configuration) :=
  match p.login with
  | .exec command => do
    let output ← run command
    return (tokenOf output).map (fun token => ⟨p.host, p.ca, some token, none⟩)
  | .certificate c => pure (.ok ⟨p.host, p.ca, none, some c⟩)
  | .token t => pure (.ok ⟨p.host, p.ca, some t, none⟩)

def configure (config : Kubeconfig) (context : String) : m (Except Error Configuration) :=
  match plan config context with
  | .ok p => p.carryOut run
  | .error e => pure (.error e)

end Running

/--
What takes the certificates of a client one after the other, and may refuse them.
-/
structure Builder (β : Type) where
  start : β
  loadCa : β → CaSource → Except Error β
  loadCertificate : β → Certificate → Except Error β

structure Built (β : Type) where
  host : String
  token : Option String
  loaded : β

namespace Builder

variable {β : Type} (b : Builder β)

def trusting (directory? : Option Path) (r : Kubeconfig.Resolved) : Except Error β := do
  b.loadCa b.start (← caSource directory? r)

variable {m : Type → Type} [Monad m] (run : ExecCommand → m (Except FileError Command.Output))

def present (host : String) (loaded : β) : Login → m (Except Error (Built β))
  | .exec command => do
    let output ← run command
    return (tokenOf output).map (fun token => ⟨host, some token, loaded⟩)
  | .certificate c => pure ((b.loadCertificate loaded c).map (fun loaded => ⟨host, none, loaded⟩))
  | .token t => pure (.ok ⟨host, some t, loaded⟩)

def configure (config : Kubeconfig) (context : String) : m (Except Error (Built β)) :=
  match config.resolve context with
  | .error e => pure (.error (.config e))
  | .ok resolved =>
    match b.trusting config.path.parent? resolved with
    | .error e => pure (.error e)
    | .ok loaded =>
      match login config.path.parent? resolved.user with
      | .error e => pure (.error e)
      | .ok l => b.present run resolved.cluster.server loaded l

end Builder

end ClusterRegistration.Client
