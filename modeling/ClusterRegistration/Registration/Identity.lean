import ClusterRegistration.Registration.Descriptor
import ClusterRegistration.Registration.Script

/-!
This module contains the first half of a registration: the service account in the source cluster that
the destination will act as, and the credential issued for it.
-/

namespace ClusterRegistration.Registration

structure Identity where
  ns : String
  serviceAccount : String
deriving DecidableEq, Repr, Inhabited

namespace Identity

def accountInput (i : Identity) : ObjectInput .serviceAccount :=
  .new (InputMeta.named i.serviceAccount i.ns) ()

def ensure (i : Identity) : Script Unit := do
  match ← Script.ask .source "get serviceaccount" (.get .serviceAccount ⟨i.serviceAccount, i.ns⟩) with
  | .ok _ => pure ()
  | .error e =>
    if e.isNotFound then
      Script.createIfAbsent .source "create serviceaccount" i.accountInput
      Script.fail (.identityNotReady i.serviceAccount i.ns)
    else
      Script.fail (.api "get serviceaccount" e)

def isBoundToken (i : Identity) (secret : Object .secret) : Bool :=
  let header : SecretHeader := secret.header
  header.isServiceAccountToken &&
    secret.metadata.annotations.get? SecretHeader.serviceAccountAnnotation = some i.serviceAccount

def placeholderName (i : Identity) : String :=
  i.serviceAccount ++ "-secret"

def placeholder (i : Identity) : ObjectInput .secret :=
  .new
    ((InputMeta.named i.placeholderName i.ns).annotate SecretHeader.serviceAccountAnnotation
      i.serviceAccount)
    () (SecretHeader.typed SecretHeader.serviceAccountToken)

def tokenKey : String := "token"

def caKey : String := "ca.crt"

def credentialOf? (secret : Object .secret) : Option Credential :=
  let header : SecretHeader := secret.header
  match header.data.get? tokenKey with
  | none => none
  | some token =>
    if token.isEmpty then none
    else some ⟨secret.metadata.name, token, (header.data.get? caKey).getD ""⟩

/--
Find the credential of the account in the first secret that is bound to it. If there is no such
secret, one is requested.
-/
def locate (i : Identity) : Script Credential := do
  let answer ← Script.ask .source "list secrets" (.list .secret (.inNamespace i.ns))
  let secrets : ObjectList .secret ← Script.require "list secrets" answer
  match secrets.items.find? i.isBoundToken with
  | none =>
    Script.createIfAbsent .source "create secret" i.placeholder
    Script.fail (.noCredential i.serviceAccount i.ns)
  | some secret =>
    match credentialOf? secret with
    | some credential => pure credential
    | none => Script.fail (.noCredential i.serviceAccount i.ns)

end Identity

end ClusterRegistration.Registration
