import ClusterRegistration.Client.Configuration
import ClusterRegistration.Proofs.Kubeconfig.Text
import ClusterRegistration.Proofs.Registration.Descriptor
import ClusterRegistration.Proofs.Registration.Publication

/-!
This module contains the consumers of what is published: they begin at a client config, and end up with
a client of the registered cluster.
-/

namespace ClusterRegistration

open Registration

section Consumer

variable {m : Type → Type} [Monad m] (run : ExecCommand → m (Except FileError Command.Output))

def Store.consume (s : Store) (item : ItemName) :
    Option (m (Except Client.Error Client.Configuration)) := do
  let record ← (s.get .clientConfig item).toOption
  let reference : ClientConfigSpec := record.spec
  let secret ← (s.get .secret ⟨reference.secret.name, item.ns⟩).toOption
  let payload ← (SecretHeader.data secret.header).get? kubeconfigKey
  let bytes ← (Text.Base64.decode (Text.Utf8.encode payload)).toOption
  let text ← Text.Utf8.decode? bytes
  let kubeconfig ← (Kubeconfig.ofYaml (Text.Utf8.encode text)).toOption
  return Client.configure run kubeconfig reference.contextName

theorem Client.decodeBase64_base64Text (bytes : Bytes) :
    Client.decodeBase64 (base64Text bytes) = .ok bytes := by
  unfold Client.decodeBase64
  rw [decode_base64Text]

theorem Client.plan_descriptor (token : String) (ca : Bytes) (host name : String) :
    Client.plan (descriptor token ca host name) name = .ok ⟨host, .data ca, .token token⟩ := by
  unfold Client.plan
  rw [resolve_descriptor]
  simp only [Client.caSource, Client.decodeBase64_base64Text]
  rfl

theorem Client.configure_descriptor (token : String) (ca : Bytes) (host name : String) :
    Client.configure run (descriptor token ca host name) name =
      pure (.ok ⟨host, .data ca, some token, none⟩) := by
  unfold Client.configure
  rw [Client.plan_descriptor]
  rfl

theorem Store.consume_applied {s : Store} {p : Publication} (token : String) (ca : Bytes) (host : String)
    (hsecret : s.objects.contains (Store.Key.of .secret p.item) = false)
    (hclientConfig : s.objects.contains (Store.Key.of .clientConfig p.item) = false) :
    (p.applied (descriptor token ca host p.name) s).consume run p.item =
      some (pure (.ok ⟨host, .data ca, some token, none⟩)) := by
  have hpayload (kubeconfig : Kubeconfig) : (SecretHeader.data (p.secretInput kubeconfig).header).get?
      kubeconfigKey = some (base64Text (Text.Utf8.encode kubeconfig.toYaml)) := by
    apply OrderedMap.get?_insert_self
  obtain ⟨version, hrecord⟩ :=
    Publication.get_clientConfig_applied (descriptor token ca host p.name) hclientConfig
  have hfound := Publication.get_secret_applied (descriptor token ca host p.name) hsecret
  unfold Store.consume
  rw [hrecord]
  show ((p.applied (descriptor token ca host p.name) s).get .secret p.item).toOption.bind _ = _
  rw [hfound]
  show ((SecretHeader.data (p.secretInput (descriptor token ca host p.name)).header).get?
    kubeconfigKey).bind _ = _
  rw [hpayload, Option.bind_some, decode_base64Text]
  show (Text.Utf8.decode? _).bind _ = _
  rw [Text.Utf8.decode?_encode, Option.bind_some, Kubeconfig.ofYaml_toYaml]
  show some (Client.configure run (descriptor token ca host p.name) p.name) = _
  rw [Client.configure_descriptor]

end Consumer

end ClusterRegistration
