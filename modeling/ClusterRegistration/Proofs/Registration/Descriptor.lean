import ClusterRegistration.Proofs.Text.Base64
import ClusterRegistration.Proofs.Text.Utf8
import ClusterRegistration.Registration.Descriptor

namespace ClusterRegistration

def Text.IsBase64 (s : String) (bytes : Bytes) : Prop :=
  ∃ n, Utf8.encode s ++ List.replicate n Base64.pad = Base64.encode bytes

theorem Text.decode_eq_ok_iff {s : String} {bytes : Bytes} :
    Base64.decode (Utf8.encode s) = .ok bytes ↔ IsBase64 s bytes :=
  Base64.decode_eq_ok_iff

theorem Text.IsBase64.unique {s : String} {bytes bytes' : Bytes} (h : IsBase64 s bytes) (h' : IsBase64 s bytes') :
    bytes = bytes' := by
  rw [← Text.decode_eq_ok_iff] at h h'
  rw [h] at h'
  exact Except.ok.inj h'

theorem Text.allBlank_eq_false_iff {s : String} :
    allBlank s = false ↔ ∃ c ∈ s.toList, isBlank c = false := by
  simp [allBlank]

namespace Registration

theorem encode_base64Text (bytes : Bytes) :
    Text.Utf8.encode (base64Text bytes) = Text.Base64.encode bytes := by
  unfold base64Text
  apply Text.Utf8.encode_decodeLossy
  apply Text.Base64.lt_of_mem_encode

theorem decode_base64Text (bytes : Bytes) :
    Text.Base64.decode (Text.Utf8.encode (base64Text bytes)) = .ok bytes := by
  rw [encode_base64Text, Text.Base64.decode_encode]

theorem encode_empty : Text.Utf8.encode "" = [] := by
  decide

theorem base64Text_ne_empty {bytes : Bytes} (h : bytes ≠ []) : base64Text bytes ≠ "" := by
  intro hempty
  have hdecoded := decode_base64Text bytes
  rw [hempty, encode_empty] at hdecoded
  -- The empty text stands for no bytes at all.
  have hnone : Text.Base64.decode [] = .ok [] := Text.Base64.decode_encode []
  rw [hnone, Except.ok.injEq] at hdecoded
  exact h hdecoded.symm

theorem encode_ne_nil_of_not_allBlank {token : String} (h : Text.allBlank token = false) :
    Text.Utf8.encode token ≠ [] := by
  rw [← encode_empty, ne_eq, Text.Utf8.encode_inj]
  rintro rfl
  cases h

theorem isBase64_base64Text (bytes : Bytes) : Text.IsBase64 (base64Text bytes) bytes := by
  rw [← Text.decode_eq_ok_iff]
  exact decode_base64Text bytes

namespace Credential

variable {c : Credential} {token : String} {ca : Bytes}

structure HoldsToken (c : Credential) (token : String) : Prop where
  encoded : Text.IsBase64 c.token (Text.Utf8.encode token)
  visible : ∃ ch ∈ token.toList, Text.isBlank ch = false

structure HoldsCa (c : Credential) (ca : Bytes) : Prop where
  encoded : Text.IsBase64 c.caCertificate ca
  ne_nil : ca ≠ []

theorem decodeToken_eq_ok_iff : c.decodeToken = .ok token ↔ c.HoldsToken token := by
  unfold decodeToken
  constructor
  . intro h
    split at h
    . cases h
    . next bytes hbytes =>
      split at h
      . cases h
      . next text htext =>
        split at h
        . cases h
        . next hblank =>
          cases h
          rw [Text.Utf8.decode?_eq_some_iff] at htext
          rw [htext, Text.decode_eq_ok_iff] at hbytes
          exact ⟨hbytes, Text.allBlank_eq_false_iff.mp (by simpa using hblank)⟩
  . intro h
    rw [Text.decode_eq_ok_iff.mpr h.encoded]
    simp only [Text.Utf8.decode?_encode, Text.allBlank_eq_false_iff.mpr h.visible]
    rfl

theorem decodeCa_eq_ok_iff : c.decodeCa = .ok ca ↔ c.HoldsCa ca := by
  unfold decodeCa
  constructor
  . intro h
    split at h
    . cases h
    . next bytes hbytes =>
      split at h
      . cases h
      . next hempty =>
        cases h
        exact ⟨Text.decode_eq_ok_iff.mp hbytes, by simpa using hempty⟩
  . intro h
    rw [Text.decode_eq_ok_iff.mpr h.encoded]
    exact if_neg (by simpa using h.ne_nil)

theorem HoldsToken.unique {token' : String} (h : c.HoldsToken token) (h' : c.HoldsToken token') : token = token' :=
  Text.Utf8.encode_inj.mp (h.encoded.unique h'.encoded)

theorem decodeToken_of_eq (htoken : c.token = base64Text (Text.Utf8.encode token))
    (h : Text.allBlank token = false) : c.decodeToken = .ok token := by
  rw [decodeToken_eq_ok_iff]
  exact ⟨htoken ▸ isBase64_base64Text _, Text.allBlank_eq_false_iff.mp h⟩

theorem decodeCa_of_eq (hca : c.caCertificate = base64Text ca) (h : ca ≠ []) : c.decodeCa = .ok ca := by
  rw [decodeCa_eq_ok_iff]
  exact ⟨hca ▸ isBase64_base64Text ca, h⟩

end Credential

theorem resolve_descriptor (token : String) (ca : Bytes) (host name : String) :
    (descriptor token ca host name).resolve name =
      .ok ⟨name, ContextDetail.defaultNamespace,
        { certificateAuthorityData := some (base64Text ca), server := host }, { token := some token }⟩ := by
  simp [descriptor, Kubeconfig.resolve, Kubeconfig.context?, Kubeconfig.cluster?, Kubeconfig.user?,
    Named.find?, ContextDetail.namespaceName]

theorem translate_eq_ok_iff (c : Credential) (host name : String) (k : Kubeconfig) :
    translate c host name = .ok k ↔
      ∃ token ca, c.decodeToken = .ok token ∧ c.decodeCa = .ok ca ∧
        k = descriptor token ca host name := by
  unfold translate
  cases htoken : c.decodeToken with
  | error fault => simp [bind, Except.bind]
  | ok token =>
    cases hca : c.decodeCa with
    | error fault => simp [bind, Except.bind]
    | ok ca => simp [bind, Except.bind, pure, Except.pure, eq_comm]

theorem translate_of_holds {c : Credential} {token : String} {ca : Bytes} (htoken : c.HoldsToken token)
    (hca : c.HoldsCa ca) (host name : String) :
    translate c host name = .ok (descriptor token ca host name) := by
  rw [translate_eq_ok_iff]
  exact ⟨token, ca, Credential.decodeToken_eq_ok_iff.mpr htoken, Credential.decodeCa_eq_ok_iff.mpr hca, rfl⟩

theorem translate_base64Text (secret host name : String) {token : String} {ca : Bytes}
    (htoken : Text.allBlank token = false) (hca : ca ≠ []) :
    translate ⟨secret, base64Text (Text.Utf8.encode token), base64Text ca⟩ host name =
      .ok (descriptor token ca host name) := by
  refine translate_of_holds ⟨?_, Text.allBlank_eq_false_iff.mp htoken⟩ ⟨?_, hca⟩ host name
  . exact isBase64_base64Text _
  . exact isBase64_base64Text ca

end Registration

end ClusterRegistration
