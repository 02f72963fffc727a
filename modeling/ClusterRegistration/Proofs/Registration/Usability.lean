import ClusterRegistration.Proofs.Client.Delivery
import ClusterRegistration.Proofs.Registration.Endpoint
import ClusterRegistration.Proofs.Registration.Exchange
import ClusterRegistration.Proofs.Registration.Translation

namespace ClusterRegistration.Registration

/--
The law of usability. A client of the descriptor of an endpoint and of a credential that is accepted finds the
addresses of all names that are not too long. Each call whose address it finds is sent with the token, exactly if
all characters of the token can be written into a header. Otherwise no call is ever sent.
-/
theorem usability_law {t : Target} {content : Except FileError Bytes} {c : Credential} {host name : String}
    {config : Kubeconfig} (hhost : resolveHost t content = .ok host) (hconfig : translate c host name = .ok config) :
    ∃ token configuration, c.HoldsToken token ∧
      (∀ {m : Type → Type} [Monad m] (run : ExecCommand → m (Except FileError Command.Output)),
        Client.configure run config name = pure (.ok configuration)) ∧
      ∀ call : Call,
        ((∀ name ∈ call.request.names, IsDnsName name) →
          (call.request.addressText host).utf8ByteSize ≤ Uri.maxLength →
            ∃ uri, configuration.session.address call.request = .ok uri) ∧
        ∀ uri, configuration.session.address call.request = .ok uri →
          ((∀ ch ∈ token.toList, Http.IsHeaderChar ch) →
            ∃ message, configuration.session.Sends call message ∧ message.uri = uri ∧
              ∀ value, ⟨"authorization", value⟩ ∈ message.headers ↔ value = "Bearer " ++ token) ∧
          ((∃ ch ∈ token.toList, ¬ Http.IsHeaderChar ch) → configuration.session.IsMute call) := by
  obtain ⟨config', resolved, -, -, hfault, -⟩ := resolveHost_eq_ok_iff.mp hhost
  obtain ⟨token, ca, htoken, -, rfl⟩ := (translate_eq_ok_iff c host name config).mp hconfig
  refine ⟨token, ⟨host, .data ca, some token, none⟩, Credential.decodeToken_eq_ok_iff.mp htoken,
    fun run => Client.configure_descriptor run token ca host name, fun call => ⟨fun hnames hlength => ?_, ?_⟩⟩
  . exact Client.Session.exists_address (exists_divided_of_endpointFault? hfault) hnames hlength
  intro uri huri
  have hmessage := Client.Session.message_of_address rfl huri
  refine ⟨fun hplain => ?_, fun ⟨ch, hch, hcontrol⟩ => ?_⟩
  . rw [if_pos (Http.isHeaderValue_iff.mpr hplain)] at hmessage
    refine ⟨_, Client.Session.sends_of_message hmessage, rfl, fun value => ?_⟩
    rw [Client.Session.authorization_headers]
    simp [Client.Configuration.session]
  . rw [if_neg fun hvalue => hcontrol (Http.isHeaderValue_iff.mp hvalue ch hch)] at hmessage
    exact Client.Session.isMute_of_message hmessage

section Sample

def sampleUsable : Credential :=
  ⟨"robot-secret", "dMOp", "YQ=="⟩

theorem holdsToken_sampleUsable : sampleUsable.HoldsToken "té" :=
  ⟨⟨0, by decide⟩, 't', by decide, by decide⟩

theorem translate_sampleUsable : translate sampleUsable "https://10.0.0.1:6443" "edge" =
    .ok (descriptor "té" [97] "https://10.0.0.1:6443" "edge") :=
  translate_of_holds holdsToken_sampleUsable ⟨⟨0, by decide⟩, by decide⟩ _ _

theorem usability_law_of_sample :
    resolveHost sampleTarget ((sampleRead sampleTarget.kubeconfig).run ()).1 = .ok "https://10.0.0.1:6443" ∧
      translate sampleUsable "https://10.0.0.1:6443" "edge" =
        .ok (descriptor "té" [97] "https://10.0.0.1:6443" "edge") ∧
      ∃ message, (⟨"https://10.0.0.1:6443", some "té"⟩ : Client.Session).Sends (.ask (.list .secret .all)) message ∧
        ⟨"authorization", "Bearer té"⟩ ∈ message.headers := by
  obtain ⟨token, configuration, htoken, hconfiguration, hcall⟩ :=
    usability_law resolveHost_sampleTarget translate_sampleUsable
  obtain rfl := htoken.unique holdsToken_sampleUsable
  have hconfigured := hconfiguration (m := Id) fun _ => .error .isADirectory
  rw [Client.configure_descriptor] at hconfigured
  cases hconfigured
  obtain ⟨haddress, hsent⟩ := hcall (.ask (.list .secret .all))
  obtain ⟨uri, huri⟩ := haddress (by decide) (by decide)
  obtain ⟨message, hsends, -, hauthorization⟩ := (hsent uri huri).1 (Http.isHeaderValue_iff.mp (by decide))
  exact ⟨resolveHost_sampleTarget, translate_sampleUsable, message, hsends, (hauthorization _).mpr rfl⟩

def sampleUnsendable : Credential :=
  ⟨"robot-secret", "dAo=", "YQ=="⟩

theorem translate_sampleUnsendable : translate sampleUnsendable "https://10.0.0.1:6443" "edge" =
    .ok (descriptor "t\n" [97] "https://10.0.0.1:6443" "edge") :=
  translate_of_holds ⟨⟨0, by decide⟩, 't', by decide, by decide⟩ ⟨⟨0, by decide⟩, by decide⟩ _ _

theorem accepted_token_not_sent :
    ¬ ∀ (t : Target) (content : Except FileError Bytes) (c : Credential) (host name : String) (config : Kubeconfig)
      (run : ExecCommand → Id (Except FileError Command.Output)) (configuration : Client.Configuration),
      resolveHost t content = .ok host → translate c host name = .ok config →
        Client.configure run config name = pure (.ok configuration) →
          ∀ (call : Call) (uri : Uri), (∀ name ∈ call.request.names, IsDnsName name) →
            configuration.session.address call.request = .ok uri →
              ∃ message, configuration.session.Sends call message := by
  intro hsent
  obtain ⟨message, hsends⟩ := hsent sampleTarget _ sampleUnsendable _ "edge" _ (fun _ => .error .isADirectory) _
    resolveHost_sampleTarget translate_sampleUnsendable (Client.configure_descriptor _ _ _ _ _)
    (.ask (.list .secret .all)) _ (by decide) rfl
  exact hsends.not_isMute (Client.Session.isMute_of_message (by decide))

end Sample

end ClusterRegistration.Registration
