import ClusterRegistration.Proofs.Client.Configuration

namespace ClusterRegistration.Client

theorem tokenOf_map {f : Command.Output → Command.Output} (h : ∀ o, (f o).stdout = o.stdout)
    (output : Except FileError Command.Output) : tokenOf (output.map f) = tokenOf output := by
  cases output with
  | error e => rfl
  | ok o =>
    unfold tokenOf Except.map
    dsimp only
    rw [h]

theorem configure_map {m : Type → Type} [Monad m] [LawfulMonad m]
    (run : ExecCommand → m (Except FileError Command.Output)) (config : Kubeconfig) (context : String)
    {f : ExecCommand → Command.Output → Command.Output} (h : ∀ command o, (f command o).stdout = o.stdout) :
    configure (fun command => Except.map (f command) <$> run command) config context =
      configure run config context := by
  unfold configure
  cases plan config context with
  | error e => rfl
  | ok p =>
    obtain ⟨host, ca, l⟩ := p
    cases l with
    | exec command =>
      dsimp only [Plan.carryOut]
      rw [bind_map_left]
      simp only [tokenOf_map (h command)]
    | certificate | token => rfl

/--
A client that is configured has the certificate of the user and its key, or a token. That is the one of the user, or
the one that its command printed, and then it is in the status of what was printed, or it is empty and there is none.
Nothing but the text that a command prints makes a difference.
-/
theorem authentication_law {σ : Type} (run : ExecCommand → StateM σ (Except FileError Command.Output))
    (config : Kubeconfig) (context : String) :
    (∀ w c, ((configure run config context).run w).1 = .ok c →
      ∃ resolved, config.resolve context = .ok resolved ∧
        ((∃ certificate, c.certificate = some certificate ∧ c.token = none ∧
            Chooses config.path resolved.user (.certificate certificate)) ∨
          c.certificate = none ∧ ∃ token, c.token = some token ∧
            (resolved.user.exec = none ∧ resolved.user.token = some token ∨
              ∃ command o, resolved.user.exec = some command ∧ ((run command).run w).1 = .ok o ∧
                Printed (.ok o) token ∧
                  ∀ j, Json.parse o.stdout = .ok j →
                    j.HoldsToken token ∨ (∀ t, ¬j.HoldsToken t) ∧ token = ""))) ∧
    ∀ f : ExecCommand → Command.Output → Command.Output, (∀ command o, (f command o).stdout = o.stdout) →
      configure (fun command => Except.map (f command) <$> run command) config context =
        configure run config context := by
  refine ⟨?_, fun f => configure_map run config context⟩
  intro w c h
  obtain ⟨resolved, l, hresolved, -, -, -, hchooses, hpresents⟩ := configure_eq_ok_iff.mp h
  refine ⟨resolved, hresolved, ?_⟩
  generalize c.token = token?, c.certificate = certificate? at hpresents
  cases hpresents with
  | certificate certificate => exact .inl ⟨certificate, rfl, rfl, hchooses⟩
  | token t =>
    cases hchooses with
    | token hexec _ _ htoken => exact .inr ⟨rfl, t, rfl, .inl ⟨hexec, htoken⟩⟩
  | @exec command token hprinted =>
    cases hchooses with
    | exec hexec =>
      obtain ⟨o, -, ho, -⟩ := id hprinted
      rw [ho] at hprinted
      exact .inr ⟨rfl, token, rfl, .inr ⟨command, o, hexec, ho, hprinted, fun j => hprinted.holdsToken⟩⟩

section Sample

def sampleExec (script : String) : Kubeconfig where
  path := ⟨"/etc/kube/config"⟩
  clusters := [⟨"source", { certificateAuthorityData := some "YQ==", server := "https://10.0.0.1:6443" }⟩]
  contexts := [⟨"kind-source", { cluster := "source", user := "admin" }⟩]
  users := [⟨"admin", { exec := some ⟨"v1", ["-c", script], "sh"⟩ }⟩]

def readNothing : Path → StateM Unit (Except FileError Bytes) :=
  fun _ => pure (.error .notFound)

theorem authentication_law_of_sample :
    let config := sampleExec "echo '\x7b\"status\":\x7b\"token\":\"t\"\x7d\x7d'"
    let failed : Command.Output → Command.Output := fun o => { o with exitCode := 1 }
    (∃ command o, ((runCommand readNothing command).run ()).1 = .ok o ∧ Printed (.ok o) "t") ∧
      ((configure (fun command => Except.map failed <$> runCommand readNothing command) config
        "kind-source").run ()).1 = .ok ⟨"https://10.0.0.1:6443", .data [97], some "t", none⟩ := by
  intro config failed
  have hconfigured : ((configure (runCommand readNothing) config "kind-source").run ()).1 =
      .ok ⟨"https://10.0.0.1:6443", .data [97], some "t", none⟩ := by
    decide +kernel
  obtain ⟨hsources, hsame⟩ := authentication_law (runCommand readNothing) config "kind-source"
  refine ⟨?_, ?_⟩
  . obtain ⟨resolved, hresolved, ⟨_, ⟨⟩, -⟩ | ⟨-, _, ⟨⟩, ⟨hexec, -⟩ | ⟨command, o, -, ho, hprinted, -⟩⟩⟩ :=
      hsources () _ hconfigured
    . cases hresolved
      cases hexec
    . exact ⟨command, o, ho, hprinted⟩
  . rw [hsame (fun _ => failed) (fun _ _ => rfl)]
    exact hconfigured

theorem empty_token_of_failed_command :
    let script := "echo '\x7b\x7d'; false"
    ((runCommand readNothing ⟨"v1", ["-c", script], "sh"⟩).run ()).1 =
        .ok { stdout := Text.Utf8.encode "\x7b\x7d\n", exitCode := 1 } ∧
      ((configure (runCommand readNothing) (sampleExec script) "kind-source").run ()).1 =
        .ok ⟨"https://10.0.0.1:6443", .data [97], some "", none⟩ := by
  intro script
  refine ⟨?_, ?_⟩
  . decide +kernel
  . decide +kernel

end Sample

end ClusterRegistration.Client
