import ClusterRegistration.Kubeconfig.Basic
import ClusterRegistration.Registration.Error
import ClusterRegistration.Text.Base64
import ClusterRegistration.Text.Blank
import ClusterRegistration.Text.Utf8

namespace ClusterRegistration.Registration

structure Credential where
  secret : String
  token : String
  caCertificate : String
deriving DecidableEq, Repr, Inhabited

inductive CredentialFault where
  | tokenEncoding (e : Text.Base64.DecodeError)
  | tokenNotText
  | tokenBlank
  | caEncoding (e : Text.Base64.DecodeError)
  | caEmpty
deriving DecidableEq, Repr

def CredentialFault.message : CredentialFault → String
  | .tokenEncoding e => "token: " ++ e.message
  | .tokenNotText => "token is not utf-8"
  | .tokenBlank => "empty token"
  | .caEncoding e => "ca.crt: " ++ e.message
  | .caEmpty => "empty ca.crt"

namespace Credential

def decodeToken (c : Credential) : Except CredentialFault String :=
  match Text.Base64.decode (Text.Utf8.encode c.token) with
  | .error e => .error (.tokenEncoding e)
  | .ok bytes =>
    match Text.Utf8.decode? bytes with
    | none => .error .tokenNotText
    | some token => if Text.allBlank token then .error .tokenBlank else .ok token

def decodeCa (c : Credential) : Except CredentialFault Bytes :=
  match Text.Base64.decode (Text.Utf8.encode c.caCertificate) with
  | .error e => .error (.caEncoding e)
  | .ok bytes => if bytes.isEmpty then .error .caEmpty else .ok bytes

end Credential

def base64Text (bytes : Bytes) : String :=
  Text.Utf8.decodeLossy (Text.Base64.encode bytes)

def descriptor (token : String) (ca : Bytes) (host name : String) : Kubeconfig :=
  { clusters := [⟨name, { certificateAuthorityData := some (base64Text ca), server := host }⟩]
    contexts := [⟨name, { cluster := name, user := name }⟩]
    currentContext := name
    users := [⟨name, { token := some token }⟩] }

def translate (c : Credential) (host name : String) : Except Error Kubeconfig :=
  match (do pure (← c.decodeToken, ← c.decodeCa)) with
  | .ok (token, ca) => .ok (descriptor token ca host name)
  | .error fault => .error (.malformedCredential c.secret fault.message)

end ClusterRegistration.Registration
