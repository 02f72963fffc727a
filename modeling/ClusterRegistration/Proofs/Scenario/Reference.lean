import ClusterRegistration.Proofs.Registration.Consumer
import ClusterRegistration.Proofs.Scenario.Faults

namespace ClusterRegistration.Scenario

open Registration

section SingleStore

variable {allowed : Fault → Prop} {files : FileTree} {s : Scenario} {deadline : Deadline}

def clustersIn (name : String) (s : Scenario) : Clusters :=
  ⟨fun _ => default, fun _ => some name, s.store⟩

theorem performOn_connect (name : String) (side : Side) (t : Target) (s : Scenario) :
    performOn (ask name) (.connect side t) s = (some (.ok ()), s) :=
  rfl

theorem performOn_ask (name : String) (side : Side) (operation : String) (r : Request) (s : Scenario) :
    performOn (ask name) (.ask side operation r) s =
      ((ask name r s).1.map (·.mapError ClusterError.store), (ask name r s).2) := by
  simp only [performOn]
  rw [stateM_bind]
  cases (ask name r s).1 with
  | none => rfl
  | some answer => cases answer <;> rfl

theorem performOn_carried (h : s.Undisturbed allowed files) (deadline : Deadline) (name : String)
    (a : Action) :
    (performOn (ask name) a s).2.Undisturbed allowed files ∧
      Carried (hazard allowed deadline) a (s.clustersIn name) (performOn (ask name) a s).1
        ((performOn (ask name) a s).2.clustersIn name) := by
  cases a with
  | connect side t =>
    rw [performOn_connect]
    exact ⟨h, .inl ⟨rfl, rfl⟩⟩
  | ask side operation r =>
    obtain ⟨hinv, -, hends⟩ := ask_cases h name r
    rw [performOn_ask]
    refine ⟨hinv, ?_⟩
    rcases hends with ⟨ho, hstore⟩ | ⟨f, hf, ho, hstore⟩
    . rw [ho]
      refine .inl ?_
      rw [Clusters.answer_ask (w := s.clustersIn name) rfl operation r]
      exact ⟨rfl, Clusters.ext (fun _ => rfl) (fun _ => rfl) hstore⟩
    . have hsame : (ask name r s).2.clustersIn name = s.clustersIn name :=
        Clusters.ext (fun _ => rfl) (fun _ => rfl) hstore
      rw [ho, hsame]
      exact carried_of_error? deadline side operation name r (s.clustersIn name) hf

theorem carrierOn (allowed : Fault → Prop) (files : FileTree) (name : String) (deadline : Deadline) :
    Carrier (hazard allowed deadline) (clustersIn name) (Undisturbed allowed files) clock deadline
      (performOn (ask name)) where
  now s := rfl
  expired s hs hover := by
    refine .inr ?_
    rintro rfl
    cases hover
  sleep t s hs := ⟨⟨hs.hooks, hs.faults, hs.files⟩, rfl⟩
  perform a s hs := performOn_carried hs deadline name a

theorem clustersIn_mention (name other : String) (s : Scenario) :
    (s.mention other).clustersIn name = s.clustersIn name := by
  apply Clusters.ext
  . intros
    rfl
  . intros
    rfl
  . intro name'
    exact congrArg (fun w => w.store name') (clustersAt_mention (fun _ => default) s other)

theorem followOn_always {α : Type} {post : Except Registration.Error α → Clusters → Prop}
    {script : Script α} {name : String} (h : s.Undisturbed allowed files)
    (hscript : script.Always (hazard allowed deadline) post (s.clustersIn name)) :
    post (followOn name deadline script s).1 ((followOn name deadline script s).2.clustersIn name) := by
  rw [← clustersIn_mention name name s] at hscript
  exact ((carrierOn allowed files name deadline).run_always (undisturbed_putStore h name _) hscript).2

end SingleStore

section Publishing

variable {allowed : Fault → Prop} {files : FileTree} {s : Scenario} {deadline : Deadline}
  {credential : Credential} {host name : String} {p : Publication} {descriptor : Kubeconfig}

theorem followOn_publish (hallowed : ∀ f, allowed f → f.IsHarmless) (h : s.Undisturbed allowed files)
    (htranslate : translate credential host p.name = .ok descriptor) :
    let published := followOn name deadline (do
      p.publishSecret descriptor
      p.publishClientConfig) s
    (published.1 = .ok () ∧ published.2.store name = p.applied descriptor (s.store name)) ∨
      (∃ e, published.1 = .error e ∧ (hazard allowed deadline).Failure e) := by
  intro published
  have hreaches := p.publish_reaches (hazard_harmless hallowed deadline) host credential
    (rfl : (s.clustersIn name).storeAt? .destination = some name)
  have hpublished : p.published host credential = ⟨.ok (), p.writes descriptor⟩ := by
    rw [Publication.published, htranslate]
  rw [Publication.publish, htranslate, hpublished] at hreaches
  have hends := followOn_always h hreaches
  rcases hends with ⟨hr, hstore⟩ | ⟨e, xs, hr, hfailure, -⟩
  . refine .inl ⟨hr, ?_⟩
    have hstore : published.2.store name =
        ((s.clustersIn name).applyAll (p.writes descriptor)).store name :=
      congrArg (fun w => w.store name) hstore
    rw [hstore]
    exact p.store_applyAll_writes rfl descriptor
  . exact .inr ⟨e, hr, hfailure⟩

variable {m : Type → Type} [Monad m] (run : ExecCommand → m (Except FileError Command.Output))

/--
A consumer gets to the cluster whose credential has been published, whatever texts are involved.
Publishing succeeds if nothing goes wrong.
-/
theorem consume_of_published (s : Scenario) (credential : Credential) (host : String) (p : Publication)
    (name : String) (deadline : Deadline) (descriptor : Kubeconfig)
    (htranslate : translate credential host p.name = .ok descriptor) (hhooks : s.hooks = [])
    (hfaults : ∀ r ∈ s.faults, r.effect ≠ .notFound ∧ r.effect ≠ .alreadyExists)
    (hsecret : (s.store name).objects.contains (Store.Key.of .secret p.item) = false)
    (hclientConfig : (s.store name).objects.contains (Store.Key.of .clientConfig p.item) = false) :
    ∃ token ca, credential.decodeToken = .ok token ∧ credential.decodeCa = .ok ca ∧
      let published := followOn name deadline (do
        p.publishSecret descriptor
        p.publishClientConfig) s
      (published.1 = .ok () →
        (published.2.store name).consume run p.item =
          some (pure (.ok ⟨host, .data ca, some token, none⟩))) ∧
      (s.faults = [] → deadline = Deadline.never → published.1 = .ok ()) := by
  obtain ⟨token, ca, htoken, hca, hdescriptor⟩ :=
    (translate_eq_ok_iff credential host p.name descriptor).mp htranslate
  refine ⟨token, ca, htoken, hca, ?_⟩
  intro published
  refine ⟨?_, ?_⟩
  . intro hok
    have hundisturbed : s.Undisturbed Fault.IsHarmless s.files := ⟨hhooks, hfaults, rfl⟩
    rcases @followOn_publish _ _ _ deadline _ _ name _ _ (fun _ => id) hundisturbed htranslate with
      ⟨-, hstore⟩ | ⟨e, he, -⟩
    . rw [hstore, hdescriptor]
      exact Store.consume_applied run token ca host hsecret hclientConfig
    . rw [hok] at he
      cases he
  . intro hnone hnever
    have hquiet : s.Quiet s.files := by
      refine ⟨hhooks, ?_, rfl⟩
      simp [hnone]
    rcases @followOn_publish _ _ _ deadline _ _ name _ _ (fun _ => False.elim) hquiet htranslate with
      ⟨hok, -⟩ | ⟨e, -, ⟨operation, source, -, he⟩ | ⟨operation, -, hcut⟩⟩
    . exact hok
    . rw [hnever] at he
      exact absurd he (not_error_of_quiet source)
    . rw [hnever] at hcut
      exact absurd hcut not_cut_of_quiet

end Publishing

theorem consume_of_published_token :
    let token := "null: '0x1F' # \u0085\n"
    let credential : Credential := ⟨"token", base64Text (Text.Utf8.encode token), base64Text [1, 2]⟩
    let p : Publication := ⟨"clusters", "~"⟩
    let s := start [] FileTree.empty
    let published := followOn "b" Deadline.never (do
      p.publishSecret (descriptor token [1, 2] "https://source" p.name)
      p.publishClientConfig) s
    translate credential "https://source" p.name =
        .ok (descriptor token [1, 2] "https://source" p.name) ∧
      s.hooks = [] ∧ (∀ r ∈ s.faults, r.effect ≠ .notFound ∧ r.effect ≠ .alreadyExists) ∧
      (s.store "b").objects.contains (Store.Key.of .secret p.item) = false ∧
      (s.store "b").objects.contains (Store.Key.of .clientConfig p.item) = false ∧
      (published.2.store "b").consume (m := Id) (fun _ => .error .notFound) p.item =
        some (.ok ⟨"https://source", .data [1, 2], some token, none⟩) := by
  intro token credential p s published
  have htoken : credential.decodeToken = .ok token := Credential.decodeToken_of_eq rfl (by decide)
  have hca : credential.decodeCa = .ok [1, 2] := Credential.decodeCa_of_eq rfl (by simp)
  have htranslate : translate credential "https://source" p.name =
      .ok (descriptor token [1, 2] "https://source" p.name) := by
    rw [translate_eq_ok_iff]
    exact ⟨token, [1, 2], htoken, hca, rfl⟩
  have hfaults : ∀ r ∈ s.faults, r.effect ≠ .notFound ∧ r.effect ≠ .alreadyExists := by
    simp [s, start]
  refine ⟨htranslate, rfl, hfaults, rfl, rfl, ?_⟩
  obtain ⟨token', ca', htoken', hca', hconsume, hpublished⟩ :=
    consume_of_published (m := Id) (fun _ => .error .notFound) s credential "https://source" p "b"
      Deadline.never _ htranslate rfl hfaults rfl rfl
  rw [htoken, Except.ok.injEq] at htoken'
  rw [hca, Except.ok.injEq] at hca'
  rw [htoken', hca']
  exact hconsume (hpublished rfl rfl)

end ClusterRegistration.Scenario
