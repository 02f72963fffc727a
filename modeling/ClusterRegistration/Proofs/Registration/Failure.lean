import ClusterRegistration.Proofs.Registration.Executor

namespace ClusterRegistration.Registration

def Error.isPremature : Error → Bool
  | .selfRegistration _ _ | .config _ | .invalidEndpoint _ _ _ => true
  | _ => false

namespace Script

variable {α β : Type}

def Underway (s : Script α) : Prop :=
  ∀ past, s.Throughout (fun _ _ => True) (fun _ r => ∀ e, r = .error e → e.isPremature = false) past

theorem underway_pure (a : α) : (Script.done (.ok a) : Script α).Underway :=
  fun _ _ h => nomatch h

theorem underway_fail {e : Error} (h : e.isPremature = false) : (Script.fail e : Script α).Underway := by
  rintro past _ ⟨⟩
  exact h

theorem underway_act {a : Action} {next : a.Outcome → Script α} (h : ∀ o, (next o).Underway) :
    (Script.act a next).Underway :=
  fun _ => ⟨trivial, fun o => h o _⟩

theorem underway_bind {s : Script α} {f : α → Script β} (hs : s.Underway) (hf : ∀ a, (f a).Underway) :
    (s.bind f).Underway := by
  intro past
  rw [throughout_bind]
  apply throughout_mono (hs past)
  intro past' r hr
  cases r with
  | ok a => exact hf a past'
  | error e =>
    rintro _ ⟨⟩
    exact hr e rfl

theorem underway_ask (side : Side) (operation : String) (r : Request) : (ask side operation r).Underway :=
  underway_act underway_pure

theorem underway_require (operation : String) (answer : Except ClusterError α) : (require operation answer).Underway := by
  cases answer with
  | ok a => exact underway_pure a
  | error e => exact underway_fail rfl

theorem underway_connect (side : Side) (t : Target) : (connect side t).Underway := by
  apply underway_act
  intro o
  cases o with
  | ok u => exact underway_pure u
  | error e => exact underway_fail rfl

theorem underway_createIfAbsent (side : Side) (operation : String) {k : Kind} (input : ObjectInput k) :
    (createIfAbsent side operation input).Underway :=
  underway_bind (underway_ask _ _ _) fun _ => underway_bind (underway_require _ _) fun _ => underway_pure ()

end Script

open Script (underway_pure underway_fail underway_bind underway_ask underway_require underway_connect underway_createIfAbsent)

namespace Identity

theorem underway_ensure (i : Identity) : i.ensure.Underway := by
  apply underway_bind (underway_ask _ _ _)
  intro answer
  cases answer with
  | ok account => exact underway_pure ()
  | error e =>
    show Script.Underway (if e.isNotFound then _ else _)
    split
    . exact underway_bind (underway_createIfAbsent _ _ _) fun _ => underway_fail rfl
    . exact underway_fail rfl

theorem underway_proceed (i : Identity) (secret? : Option (Object .secret)) : (i.proceed secret?).Underway := by
  unfold proceed
  split
  . exact underway_bind (underway_createIfAbsent _ _ _) fun _ => underway_fail rfl
  . split
    . exact underway_pure _
    . exact underway_fail rfl

theorem underway_locate (i : Identity) : i.locate.Underway := by
  rw [locate_eq]
  exact underway_bind (underway_ask _ _ _) fun _ => underway_bind (underway_require _ _) fun _ => i.underway_proceed _

end Identity

theorem Publication.underway_publish (p : Publication) (host : String) (credential : Credential) :
    (p.publish host credential).Underway := by
  unfold publish
  cases h : translate credential host p.name with
  | error e =>
    obtain ⟨reason, rfl⟩ := eq_of_translate_error h
    exact underway_fail rfl
  | ok descriptor =>
    apply underway_bind (underway_pure descriptor)
    intro descriptor'
    exact underway_bind (underway_createIfAbsent _ _ _) fun _ => underway_createIfAbsent _ _ _

namespace Config

variable {c : Config} {content : Except FileError Bytes}

theorem underway_attempt (h : c.premature? content = none) : (c.attempt content).Underway := by
  obtain ⟨host, hself, hhost⟩ := exists_host_of_not_premature h
  rw [attempt_eq_of_host hself hhost]
  apply underway_bind (underway_connect _ _)
  intro _
  apply underway_bind (underway_connect _ _)
  intro _
  apply underway_bind (underway_bind c.identity.underway_ensure fun _ => c.identity.underway_locate)
  exact c.publication.underway_publish host

theorem premature?_of_isSelfRegistration (h : c.isSelfRegistration = true) :
    c.premature? content = some (.selfRegistration c.source.kubeconfig.text c.source.context) := by
  unfold premature?
  rw [h]
  rfl

end Config

namespace Executor

variable {σ τ : Type} {x : Executor σ τ} {c : Config} {deadline : Deadline} {s : σ} {e : Error}

theorem attempt_of_premature (h : c.premature? (x.read c.source.kubeconfig s).1 = some e) :
    x.attempt c deadline s = (.error e, x.prepared c s) := by
  rw [attempt_eq, Config.attempt_of_premature h]
  rfl

theorem premature?_of_attempt (h : (x.attempt c deadline s).1 = .error e) (he : e.isPremature = true) :
    c.premature? (x.read c.source.kubeconfig s).1 = some e := by
  cases hpremature : c.premature? (x.read c.source.kubeconfig s).1 with
  | some e' =>
    rw [attempt_of_premature hpremature] at h
    cases h
    rfl
  | none =>
    rw [attempt_eq] at h
    have hunderway := Script.run_throughout x.clock.lift deadline x.perform (Config.underway_attempt hpremature [])
      x.session (x.prepared c s)
    -- Neither what the script ends with is premature, nor that it is given up.
    rw [h] at hunderway
    rcases hunderway with ⟨past, hlate⟩ | ⟨operation, hgiven⟩
    . rw [hlate e rfl] at he
      cases he
    . cases hgiven
      cases he

theorem attempt_eq_selfRegistration_iff {kubeconfig context : String} :
    (x.attempt c deadline s).1 = .error (.selfRegistration kubeconfig context) ↔
      c.isSelfRegistration = true ∧ kubeconfig = c.source.kubeconfig.text ∧ context = c.source.context := by
  constructor
  . intro h
    rcases Config.of_premature (premature?_of_attempt h rfl) with ⟨hself, he⟩ | ⟨-, hhost⟩
    . cases he
      exact ⟨hself, rfl, rfl⟩
    . rcases eq_of_resolveHost_error hhost with ⟨ce, he⟩ | ⟨server, reason, he⟩
      . cases he
      . cases he
  . rintro ⟨hself, rfl, rfl⟩
    rw [attempt_of_premature (Config.premature?_of_isSelfRegistration hself)]

end Executor

end ClusterRegistration.Registration
