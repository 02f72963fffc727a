import ClusterRegistration.Proofs.Registration.Consumer

namespace ClusterRegistration

namespace Kubeconfig

structure Describes (k : Kubeconfig) (token : String) (ca : Bytes) (host name : String) : Prop where
  clusters : k.clusters.map (·.name) = [name]
  contexts : k.contexts.map (·.name) = [name]
  users : k.users.map (·.name) = [name]
  currentContext : k.currentContext = name
  resolve : ∃ resolved, k.resolve name = .ok resolved
  resolveCurrent : name ≠ "" → ∃ resolved, k.resolveCurrent = .ok resolved
  configure : ∀ {m : Type → Type} [Monad m] (run : ExecCommand → m (Except FileError Command.Output)),
    Client.configure run k name = pure (.ok ⟨host, .data ca, some token, none⟩)

end Kubeconfig

namespace Registration

theorem describes_descriptor (token : String) (ca : Bytes) (host name : String) :
    (descriptor token ca host name).Describes token ca host name := by
  have hresolve := resolve_descriptor token ca host name
  refine ⟨rfl, rfl, rfl, rfl, ⟨_, hresolve⟩, fun hname => ?_, fun run => ?_⟩
  . have hsome : ¬ name.isEmpty = true := by
      rw [String.isEmpty_iff]
      exact hname
    exact ⟨_, (if_neg hsome).trans hresolve⟩
  . exact Client.configure_descriptor run token ca host name

def CredentialFault.concernsToken : CredentialFault → Bool
  | .tokenEncoding _ => true
  | .tokenNotText => true
  | .tokenBlank => true
  | .caEncoding _ => false
  | .caEmpty => false

namespace Credential

variable {c : Credential} {token : String} {ca : Bytes} {fault : CredentialFault}

/--
What is wrong with a credential. The certificate is only looked at behind a token.
-/
inductive Faulty (c : Credential) : CredentialFault → Prop where
  | tokenEncoding (e : Text.Base64.DecodeError) (h : ∀ bytes, ¬ Text.IsBase64 c.token bytes) :
    Faulty c (.tokenEncoding e)
  | tokenNotText {bytes : Bytes} (hbytes : Text.IsBase64 c.token bytes)
    (h : ∀ token, bytes ≠ Text.Utf8.encode token) : Faulty c .tokenNotText
  | tokenBlank {token : String} (htoken : Text.IsBase64 c.token (Text.Utf8.encode token))
    (h : ∀ ch ∈ token.toList, Text.isBlank ch = true) : Faulty c .tokenBlank
  | caEncoding {token : String} (htoken : c.HoldsToken token) (e : Text.Base64.DecodeError)
    (h : ∀ bytes, ¬ Text.IsBase64 c.caCertificate bytes) : Faulty c (.caEncoding e)
  | caEmpty {token : String} (htoken : c.HoldsToken token) (h : Text.IsBase64 c.caCertificate []) :
    Faulty c .caEmpty

theorem not_isBase64_of_decode {s : String} {e : Text.Base64.DecodeError}
    (h : Text.Base64.decode (Text.Utf8.encode s) = .error e) (bytes : Bytes) : ¬ Text.IsBase64 s bytes := by
  rw [← Text.decode_eq_ok_iff, h]
  nofun

theorem faulty_of_decodeToken (h : c.decodeToken = .error fault) : c.Faulty fault := by
  unfold decodeToken at h
  split at h
  . next e hbytes =>
    cases h
    exact .tokenEncoding e (not_isBase64_of_decode hbytes)
  . next bytes hbytes =>
    rw [Text.decode_eq_ok_iff] at hbytes
    split at h
    . next hnone =>
      cases h
      refine .tokenNotText hbytes fun token htoken => ?_
      rw [htoken, Text.Utf8.decode?_encode] at hnone
      cases hnone
    . next token htoken =>
      rw [Text.Utf8.decode?_eq_some_iff] at htoken
      rw [htoken] at hbytes
      split at h
      . next hblank =>
        cases h
        exact .tokenBlank hbytes (List.all_eq_true.mp hblank)
      . cases h

theorem faulty_of_decodeCa (htoken : c.HoldsToken token) (h : c.decodeCa = .error fault) : c.Faulty fault := by
  unfold decodeCa at h
  split at h
  . next e hbytes =>
    cases h
    exact .caEncoding htoken e (not_isBase64_of_decode hbytes)
  . next bytes hbytes =>
    rw [Text.decode_eq_ok_iff] at hbytes
    split at h
    . next hempty =>
      cases h
      rw [List.isEmpty_iff] at hempty
      exact .caEmpty htoken (hempty ▸ hbytes)
    . cases h

theorem Faulty.concernsToken_iff (h : c.Faulty fault) :
    fault.concernsToken = true ↔ ∀ token, ¬ c.HoldsToken token := by
  cases h with
  | tokenEncoding e h => exact iff_of_true rfl fun token htoken => h _ htoken.encoded
  | tokenNotText hbytes h => exact iff_of_true rfl fun token htoken => h token (hbytes.unique htoken.encoded)
  | tokenBlank htext h =>
    refine iff_of_true rfl fun token htoken => ?_
    obtain ⟨ch, hch, hvisible⟩ := htoken.visible
    rw [← Text.Utf8.encode_inj.mp (htext.unique htoken.encoded)] at hch
    rw [h ch hch] at hvisible
    cases hvisible
  | caEncoding htoken e h => exact iff_of_false nofun fun hnone => hnone _ htoken
  | caEmpty htoken h => exact iff_of_false nofun fun hnone => hnone _ htoken

end Credential

theorem translate_eq_error {c : Credential} {host name : String} {e : Error} (h : translate c host name = .error e) :
    ∃ fault, c.Faulty fault ∧ e = .malformedCredential c.secret fault.message := by
  unfold translate at h
  cases htoken : c.decodeToken with
  | error fault =>
    rw [htoken] at h
    cases h
    exact ⟨fault, Credential.faulty_of_decodeToken htoken, rfl⟩
  | ok token =>
    cases hca : c.decodeCa with
    | error fault =>
      rw [htoken, hca] at h
      cases h
      exact ⟨fault, Credential.faulty_of_decodeCa (Credential.decodeToken_eq_ok_iff.mp htoken) hca, rfl⟩
    | ok ca =>
      rw [htoken, hca] at h
      cases h

/--
The law of translation. Exactly the credentials with a token and a certificate are accepted, and what they are
translated into has both. All others are rejected for good, with the name of the secret and for a fault that
they have; without a token it is one of the token.
-/
theorem translation_law (c : Credential) (host name : String) :
    ((∃ k, translate c host name = .ok k) ↔ ∃ token ca, c.HoldsToken token ∧ c.HoldsCa ca) ∧
      (∀ token ca, c.HoldsToken token → c.HoldsCa ca →
        ∃ k, translate c host name = .ok k ∧ k.Describes token ca host name) ∧
      ∀ e, translate c host name = .error e →
        e.isRecoverable = false ∧ ∃ fault, c.Faulty fault ∧ e = .malformedCredential c.secret fault.message ∧
          (fault.concernsToken = true ↔ ∀ token, ¬ c.HoldsToken token) := by
  refine ⟨⟨?_, ?_⟩, fun token ca htoken hca => ?_, fun e he => ?_⟩
  . rintro ⟨k, hk⟩
    obtain ⟨token, ca, htoken, hca, -⟩ := (translate_eq_ok_iff c host name k).mp hk
    exact ⟨token, ca, Credential.decodeToken_eq_ok_iff.mp htoken, Credential.decodeCa_eq_ok_iff.mp hca⟩
  . rintro ⟨token, ca, htoken, hca⟩
    exact ⟨_, translate_of_holds htoken hca host name⟩
  . exact ⟨_, translate_of_holds htoken hca host name, describes_descriptor token ca host name⟩
  . obtain ⟨fault, hfault, rfl⟩ := translate_eq_error he
    exact ⟨rfl, fault, hfault, rfl, hfault.concernsToken_iff⟩

section Sample

def sampleCredential : Credential :=
  ⟨"robot-secret", "dA", "YQ"⟩

def sampleFaulty : Credential :=
  ⟨"robot-secret", "IA==", "-"⟩

theorem translation_law_of_sample :
    sampleCredential.HoldsToken "t" ∧ sampleCredential.HoldsCa [97] ∧
      (∃ k, translate sampleCredential "https://10.0.0.1:6443" "edge" = .ok k ∧
        k.Describes "t" [97] "https://10.0.0.1:6443" "edge") ∧
      ∃ e, translate sampleFaulty "https://10.0.0.1:6443" "edge" = .error e ∧ e.isRecoverable = false := by
  have htoken : sampleCredential.HoldsToken "t" := ⟨⟨2, by decide⟩, 't', by decide, by decide⟩
  have hca : sampleCredential.HoldsCa [97] := ⟨⟨2, by decide⟩, by decide⟩
  have hfaulty : translate sampleFaulty "https://10.0.0.1:6443" "edge" =
      .error (.malformedCredential "robot-secret" "empty token") := by
    have hblank : Text.Base64.decode (Text.Utf8.encode "IA==") = .ok (Text.Utf8.encode " ") :=
      Text.decode_eq_ok_iff.mpr ⟨0, by decide⟩
    have hfault : sampleFaulty.decodeToken = .error .tokenBlank := by
      unfold Credential.decodeToken sampleFaulty
      rw [hblank]
      dsimp only
      rw [Text.Utf8.decode?_encode]
      rfl
    unfold translate
    rw [hfault]
    rfl
  obtain ⟨-, haccepted, -⟩ := translation_law sampleCredential "https://10.0.0.1:6443" "edge"
  obtain ⟨-, -, hrejected⟩ := translation_law sampleFaulty "https://10.0.0.1:6443" "edge"
  exact ⟨htoken, hca, haccepted "t" [97] htoken hca, _, hfaulty, (hrejected _ hfaulty).1⟩

end Sample

end Registration

end ClusterRegistration
