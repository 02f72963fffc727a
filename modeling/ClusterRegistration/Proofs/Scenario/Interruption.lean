import ClusterRegistration.Proofs.Registration.Retry
import ClusterRegistration.Proofs.Scenario.Effect

/-!
This module contains attempts at a registration that are interrupted at one of their calls, and what
attempts that follow make of it.
-/

namespace ClusterRegistration

open Registration

namespace Scenario

/--
How a call is interrupted: it fails before it takes effect, it takes effect but its answer is lost, or
the deadline is over before it is made.
-/
inductive Interruption where
  | refused (e : ClusterError)
  | lost (e : ClusterError)
  | cut
deriving DecidableEq, Repr

structure Interrupted where
  calls : Nat
  interruption : Interruption
  deadline : Deadline
deriving DecidableEq, Repr

def Interruption.IsHarmless : Interruption → Prop
  | .refused e => e.isNotFound = false ∧ e.isAlreadyExists = false
  | .lost e => e.isNotFound = false ∧ e.isAlreadyExists = false
  | .cut => True

def performUntil (ends : Side → Target) (interruption : Interruption) (a : Action) :
    StateM (Nat × Scenario) (Option a.Outcome) := fun (calls, s) =>
  match calls, interruption with
  | calls + 1, _ =>
    let (o, s') := perform ends a s
    (o, calls, s')
  | 0, .refused e => (some (a.failure e), 0, s)
  | 0, .lost e => (some (a.failure e), 0, (perform ends a s).2)
  | 0, .cut => (none, 0, s)

def clockUntil : Clock (StateM (Nat × Scenario)) where
  now := fun (calls, s) => (s.now, calls, s)
  sleep time := fun (calls, s) => ((), calls, (clock.sleep time s).2)

def registerUntil (i : Interrupted) (c : Config) : Run (Except Registration.Error Unit) := fun s =>
  let script := c.attempt (s.files.read c.source.kubeconfig)
  let (r, _, s') :=
    script.run clockUntil i.deadline (performUntil c.target i.interruption) (i.calls, s)
  (r, s')

def registerInterrupted (c : Config) : List Interrupted → Scenario → Scenario
  | [], s => s
  | i :: is, s => registerInterrupted c is (registerUntil i c s).2

def registerTwice (c : Config) : Run (Except Registration.Error Unit) := do
  let _ ← register .stores c Deadline.never
  register .stores c Deadline.never

def interruptedHazard : Hazard where
  error e := e.isNotFound = false ∧ e.isAlreadyExists = false
  cut := True
  late := True

theorem carrierUntil {i : Interruption} (hi : i.IsHarmless) (files : FileTree) (ends : Side → Target)
    (deadline : Deadline) :
    Carrier interruptedHazard (fun p => p.2.clustersAt ends) (fun p => p.2.Quiet files) clockUntil
      deadline (performUntil ends i) where
  now _ := rfl
  expired _ _ _ := trivial
  sleep _ _ h := ⟨⟨h.hooks, h.faults, h.files⟩, rfl⟩
  perform := by
    rintro a ⟨calls, s⟩ h
    obtain ⟨hinv, hanswer, hview⟩ := @perform_of_quiet _ _ ends h a
    cases calls with
    | succ calls => exact ⟨hinv, .inl ⟨hanswer, hview⟩⟩
    | zero =>
      cases i with
      | refused e => exact ⟨h, .inr ⟨.inr ⟨e, hi, rfl⟩, .inl rfl⟩⟩
      | lost e => exact ⟨hinv, .inr ⟨.inr ⟨e, hi, rfl⟩, .inr ⟨trivial, hview⟩⟩⟩
      | cut => exact ⟨h, .inr ⟨.inl ⟨rfl, trivial⟩, .inl rfl⟩⟩

theorem registerUntil_applyAll {i : Interrupted} (hi : i.interruption.IsHarmless) {files : FileTree}
    {s : Scenario} (h : s.Quiet files) (c : Config) :
    (registerUntil i c s).2.Quiet files ∧
      ∃ xs, xs <+: (c.prospect (files.read c.source.kubeconfig) (s.clustersAt c.target)).writes ∧
        (registerUntil i c s).2.clustersAt c.target = (s.clustersAt c.target).applyAll xs := by
  have hfiles := h.files
  subst hfiles
  have hattempt : (c.attempt (s.files.read c.source.kubeconfig)).Always interruptedHazard _
      (s.clustersAt c.target) := c.attempt_ends (fun _ he => he) _ rfl
  obtain ⟨hinv, hends⟩ := (carrierUntil hi s.files c.target i.deadline).run_always
    (s := (i.calls, s)) h hattempt
  refine ⟨hinv, ?_⟩
  rcases hends with (⟨-, hdone⟩ | ⟨e, xs, -, -, hxs, hpart, -⟩) | ⟨target, e, -, -, hnothing⟩
  . exact ⟨_, List.prefix_rfl, hdone⟩
  . exact ⟨xs, hxs, hpart⟩
  . exact ⟨[], List.nil_prefix, hnothing⟩

theorem registerInterrupted_alike {files : FileTree} {s : Scenario} (h : s.Quiet files) (c : Config)
    {is : List Interrupted} (his : ∀ i ∈ is, i.interruption.IsHarmless) :
    (registerInterrupted c is s).Quiet files ∧
      c.Alike (files.read c.source.kubeconfig) (s.clustersAt c.target)
        ((registerInterrupted c is s).clustersAt c.target) := by
  -- Each attempt does the first part of what one that gets through does, so nothing is lost for it.
  induction is generalizing s with
  | nil => exact ⟨h, Config.alike_refl _⟩
  | cons i is ih =>
    obtain ⟨hquiet, xs, hxs, hafter⟩ := registerUntil_applyAll (his i List.mem_cons_self) h c
    obtain ⟨hquiet', halike⟩ := ih hquiet (fun j hj => his j (List.mem_cons_of_mem i hj))
    refine ⟨hquiet', ?_⟩
    apply Config.alike_trans _ halike
    rw [hafter]
    exact Config.alike_of_prefix rfl hxs

theorem registerTwice_of_quiet {files : FileTree} {s : Scenario} (h : s.Quiet files) (c : Config) :
    (registerTwice c s).1 =
        (c.prospect (files.read c.source.kubeconfig)
          (c.after (files.read c.source.kubeconfig) (s.clustersAt c.target))).result ∧
      (registerTwice c s).2.clustersAt c.target =
        c.after (files.read c.source.kubeconfig)
          (c.after (files.read c.source.kubeconfig) (s.clustersAt c.target)) := by
  obtain ⟨hquiet, -, hafter⟩ := register_of_quiet h c
  obtain ⟨-, hresult', hafter'⟩ := register_of_quiet hquiet c
  rw [hafter] at hresult' hafter'
  exact ⟨hresult', hafter'⟩

/--
Attempts that are interrupted lose nothing and do nothing twice: two more attempts end as if they had
been the first ones.
-/
theorem registerTwice_of_interrupted (s : Scenario) (c : Config) (is : List Interrupted)
    (hhooks : s.hooks = []) (hfaults : s.faults = [])
    (his : ∀ i ∈ is, i.interruption.IsHarmless) :
    (registerTwice c (registerInterrupted c is s)).1 = (registerTwice c s).1 ∧
      ∀ name, (registerTwice c (registerInterrupted c is s)).2.store name =
        (registerTwice c s).2.store name := by
  have hquiet : s.Quiet s.files := by
    refine ⟨hhooks, ?_, rfl⟩
    rw [hfaults]
    intro r hr
    cases hr
  obtain ⟨hquiet', halike⟩ := registerInterrupted_alike hquiet c his
  obtain ⟨hresult, hafter⟩ := registerTwice_of_quiet hquiet c
  obtain ⟨hresult', hafter'⟩ := registerTwice_of_quiet hquiet' c
  refine ⟨?_, ?_⟩
  . rw [hresult', hresult, halike.result]
  . intro name
    have hclusters : (registerTwice c (registerInterrupted c is s)).2.clustersAt c.target =
        (registerTwice c s).2.clustersAt c.target := by
      rw [hafter', hafter, halike.after]
    exact congrArg (fun w => w.store name) hclusters

def registerUntilAt (host : String) (i : Interrupted) (c : Config) : Run (Except Registration.Error Unit) := fun s =>
  let script := (Script.connect .source c.source).bind fun _ =>
    (Script.connect .destination c.destination).bind fun _ =>
      (c.identity.ensure.bind fun _ => c.identity.locate).bind (c.publication.publish host)
  let (r, _, s') :=
    script.run clockUntil i.deadline (performUntil c.target i.interruption) (i.calls, s)
  (r, s')

theorem registerUntil_of_host {i : Interrupted} {c : Config} {host : String} {files : FileTree} {s : Scenario}
    (h : s.Quiet files) (hself : c.isSelfRegistration = false)
    (hhost : resolveHost c.source (files.read c.source.kubeconfig) = .ok host) :
    registerUntil i c s = registerUntilAt host i c s := by
  unfold registerUntil
  rw [h.files, Config.attempt_eq_of_host hself hhost]
  rfl

theorem registerTwice_of_lost_answer :
    let s := sampleIssued "t" [1, 2]
    let lost : Interrupted := ⟨4, .lost (.store .lockPoisoned), Deadline.never⟩
    let refused : Interrupted := ⟨5, .refused (.io "reset"), Deadline.never⟩
    let late : Interrupted := ⟨5, .cut, ⟨some 5⟩⟩
    let s₁ := registerInterrupted sample [lost] s
    let s₂ := registerInterrupted sample [lost, refused] s
    let s₃ := registerInterrupted sample [lost, refused, late] s
    ((registerUntil lost sample s).1.mapError (·.message) =
        .error "create kubeconfig secret failed: lock poison error" ∧
      (registerUntil refused sample s₁).1.mapError (·.message) = .error "create client config failed: reset" ∧
      (registerUntil late sample s₂).1.mapError (·.message) =
        .error "deadline exceeded during create client config") ∧
      sample.destinationKeys.map (s.store "b").objects.contains = [false, false] ∧
      sample.destinationKeys.map (s₃.store "b").objects.contains = [true, false] ∧
      (registerTwice sample s₃).1 = (registerTwice sample s).1 ∧
      ∀ name, (registerTwice sample s₃).2.store name = (registerTwice sample s).2.store name := by
  intro s lost refused late s₁ s₂ s₃
  have hself : sample.isSelfRegistration = false := by decide +kernel
  have hquiet : s.Quiet sampleStart.files := ⟨rfl, nofun, rfl⟩
  obtain ⟨hquiet₁, -⟩ := registerUntil_applyAll (i := lost) ⟨rfl, rfl⟩ hquiet sample
  obtain ⟨hquiet₂, -⟩ := registerUntil_applyAll (i := refused) ⟨rfl, rfl⟩ hquiet₁ sample
  have hlost := registerUntil_of_host (i := lost) hquiet hself resolveHost_sample
  have hrefused := registerUntil_of_host (i := refused) hquiet₁ hself resolveHost_sample
  have hlate := registerUntil_of_host (i := late) hquiet₂ hself resolveHost_sample
  have hruns :
      ((registerUntil lost sample s).1.mapError (·.message), (registerUntil refused sample s₁).1.mapError (·.message),
        (registerUntil late sample s₂).1.mapError (·.message),
        sample.destinationKeys.map (s₃.store "b").objects.contains) =
      (.error "create kubeconfig secret failed: lock poison error", .error "create client config failed: reset",
        .error "deadline exceeded during create client config", [true, false]) := by
    unfold s₁ s₂ s₃
    simp only [registerInterrupted]
    rw [hlate, hrefused, hlost]
    decide +kernel
  simp only [Prod.mk.injEq] at hruns
  obtain ⟨hresult, hresult₁, hresult₂, hkeys⟩ := hruns
  refine ⟨⟨hresult, hresult₁, hresult₂⟩, by decide +kernel, hkeys, ?_⟩
  apply registerTwice_of_interrupted s sample [lost, refused, late] rfl rfl
  intro i hi
  simp only [List.mem_cons, List.not_mem_nil, or_false] at hi
  rcases hi with rfl | rfl | rfl
  . exact ⟨rfl, rfl⟩
  . exact ⟨rfl, rfl⟩
  . trivial

end Scenario

end ClusterRegistration
