import ClusterRegistration.Proofs.FileTree
import ClusterRegistration.Proofs.Registration.Failure
import ClusterRegistration.Proofs.Scenario.Polling

namespace ClusterRegistration

namespace Registration

/--
The ends have the same context, and paths that are left with the same text.
-/
structure Config.IsLoop (c : Config) : Prop where
  path : c.source.kubeconfig.simplified = c.destination.kubeconfig.simplified
  context : c.source.context = c.destination.context

def Config.IsDisguised (c : Config) : Prop :=
  c.source.kubeconfig.isDotted ≠ c.destination.kubeconfig.isDotted

theorem Config.isSelfRegistration_iff {c : Config} :
    c.isSelfRegistration = true ↔ c.IsLoop ∧ ¬c.IsDisguised := by
  unfold isSelfRegistration Target.same IsDisguised
  rw [Bool.and_eq_true, Path.same_iff, decide_eq_true_iff, not_not]
  constructor
  . rintro ⟨⟨hpath, hdotted⟩, hcontext⟩
    exact ⟨⟨hpath, hcontext⟩, hdotted⟩
  . rintro ⟨⟨hpath, hcontext⟩, hdotted⟩
    exact ⟨⟨hpath, hdotted⟩, hcontext⟩

end Registration

namespace Scenario

open Registration

variable {c : Config}

theorem register_of_isSelfRegistration (h : c.isSelfRegistration = true) (connector : Connector)
    (deadline : Deadline) (s : Scenario) :
    register connector c deadline s =
      (.error (.selfRegistration c.source.kubeconfig.text c.source.context), s) := by
  cases connector with
  | stores =>
    rw [register_eq]
    exact Executor.attempt_of_premature (Config.premature?_of_isSelfRegistration h)
  | servers =>
    show registerServers machine c deadline s = _
    rw [registerServers_eq]
    exact Executor.attempt_of_premature (Config.premature?_of_isSelfRegistration h)

theorem isSelfRegistration_of_register {connector : Connector} {deadline : Deadline} {s : Scenario}
    {kubeconfig context : String}
    (h : (register connector c deadline s).1 = .error (.selfRegistration kubeconfig context)) :
    c.isSelfRegistration = true := by
  cases connector with
  | stores =>
    rw [register_eq] at h
    exact (Executor.attempt_eq_selfRegistration_iff.mp h).1
  | servers =>
    have hattempt : register .servers c deadline = (Executor.ofMachine machine).attempt c deadline :=
      registerServers_eq machine c deadline
    rw [hattempt] at h
    exact (Executor.attempt_eq_selfRegistration_iff.mp h).1

end Scenario

namespace Registration.Config

open Scenario

/--
Paths that are left with the same text lead to the same file. A registration of a context in that file to
itself is refused for good, and nothing is connected or written, unless just one of the paths begins at `.`. Then
it is not refused, and neither is one between contexts or paths that differ.
-/
theorem self_registration_law (c : Config) (deadline : Deadline) :
    (c.IsLoop → ∀ (files : FileTree) (place place' : List String),
      files.locate c.source.kubeconfig = .ok place → files.locate c.destination.kubeconfig = .ok place' →
        place = place') ∧
    (c.IsLoop → ¬c.IsDisguised →
      ∃ e, e = Error.selfRegistration c.source.kubeconfig.text c.source.context ∧ e.isRecoverable = false ∧
        (∀ connector s, register connector c deadline s = (.error e, s)) ∧
        ∀ {σ τ : Type} (x : Executor σ τ) (s : σ), x.attempt c deadline s = (.error e, x.prepared c s)) ∧
    (¬c.IsLoop ∨ c.IsDisguised → ∀ kubeconfig context,
      (∀ connector s, (register connector c deadline s).1 ≠ .error (.selfRegistration kubeconfig context)) ∧
      ∀ {σ τ : Type} (x : Executor σ τ) (s : σ),
        (x.attempt c deadline s).1 ≠ .error (.selfRegistration kubeconfig context)) := by
  refine ⟨?_, ?_, ?_⟩
  . intro hloop files place place' hplace hplace'
    exact FileTree.eq_of_locate hloop.path hplace hplace'
  . intro hloop hdisguised
    have hself : c.isSelfRegistration = true := isSelfRegistration_iff.mpr ⟨hloop, hdisguised⟩
    refine ⟨_, rfl, rfl, ?_, ?_⟩
    . exact fun connector s => register_of_isSelfRegistration hself connector deadline s
    . intro σ τ x s
      exact Executor.attempt_of_premature (premature?_of_isSelfRegistration hself)
  . intro hdiffer kubeconfig context
    have hself : c.isSelfRegistration ≠ true := by
      rw [Ne, isSelfRegistration_iff]
      rintro ⟨hloop, hdisguised⟩
      exact hdiffer.elim (fun h => h hloop) hdisguised
    refine ⟨?_, ?_⟩
    . intro connector s h
      exact hself (isSelfRegistration_of_register h)
    . intro σ τ x s h
      exact hself (Executor.attempt_eq_selfRegistration_iff.mp h).1

def looped (path path' : String) : Config :=
  ⟨⟨⟨path⟩, "kind-source"⟩, ⟨⟨path'⟩, "kind-source"⟩, ⟨"apps", "robot"⟩, ⟨"apps", "test-destination"⟩⟩

theorem isLoop_looped {path path' : String}
    (h : (Path.mk path).simplified = (Path.mk path').simplified) : (looped path path').IsLoop :=
  ⟨h, rfl⟩

theorem self_registration_law_of_sample :
    let c := looped "/etc/./kube//config/" "/etc/kube/config"
    (c.IsLoop ∧ ¬c.IsDisguised ∧
      register .servers c Deadline.never sampleStart =
        (.error (.selfRegistration "/etc/./kube//config/" "kind-source"), sampleStart)) ∧
    ¬sample.IsLoop ∧
      (register .stores sample Deadline.never sampleStart).1 ≠
        .error (.selfRegistration "/etc/kube/source.yaml" "source") := by
  intro c
  have hloop : c.IsLoop := isLoop_looped (by decide +kernel)
  have hplain : ¬c.IsDisguised := by
    unfold IsDisguised
    decide +kernel
  have hsample : ¬sample.IsLoop := by
    rintro ⟨-, hcontext⟩
    revert hcontext
    decide +kernel
  obtain ⟨-, hrefused, -⟩ := self_registration_law c Deadline.never
  obtain ⟨e, rfl, -, hregister, -⟩ := hrefused hloop hplain
  obtain ⟨-, -, htold⟩ := self_registration_law sample Deadline.never
  obtain ⟨hregister', -⟩ := htold (.inl hsample) "/etc/kube/source.yaml" "source"
  exact ⟨⟨hloop, hplain, hregister .servers sampleStart⟩, hsample, hregister' .stores sampleStart⟩

theorem self_registration_overlooked :
    (looped "config" "./config").IsLoop ∧
      ∀ connector deadline s kubeconfig context,
        (register connector (looped "config" "./config") deadline s).1 ≠
          .error (.selfRegistration kubeconfig context) := by
  have hself : (looped "config" "./config").isSelfRegistration = false := by decide +kernel
  refine ⟨isLoop_looped (by decide +kernel), ?_⟩
  intro connector deadline s kubeconfig context h
  rw [isSelfRegistration_of_register h] at hself
  cases hself

end Registration.Config

end ClusterRegistration
