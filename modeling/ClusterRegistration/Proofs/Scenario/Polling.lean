import ClusterRegistration.Proofs.Registration.Executor
import ClusterRegistration.Proofs.Scenario.Convergence

namespace ClusterRegistration

namespace Scenario

open Registration

def executor (c : Config) : Executor Scenario Unit :=
  ⟨clock, readFile, (), fun a => liftM (perform c.target a)⟩

theorem register_eq (c : Config) (deadline : Deadline) :
    register .stores c deadline = (executor c).attempt c deadline := by
  funext s
  rw [Executor.attempt_eq]
  unfold executor
  rw [run_lift]
  rfl

theorem poll_stores_eq (c : Config) (p : Polling) : poll .stores c p = (executor c).poll c p := by
  unfold poll
  rw [register_eq]
  rfl

theorem curtailed_executor {c : Config} {s : Scenario}
    (h : c.premature? (s.files.read c.source.kubeconfig) = none) :
    (executor c).curtailed c s = (.timeout 1 (.deadlineExceeded "connect to source"), s) := by
  unfold Executor.curtailed
  have hread : ((executor c).read c.source.kubeconfig s).1 = s.files.read c.source.kubeconfig := rfl
  rw [hread, h]
  rfl

end Scenario

namespace Registration.Executor

variable {σ τ : Type}

/--
Polling is as faithful to its attempts as can be. It ends with the first attempt that lets it, and times
out only at a deadline, because of a failure that might have passed. With a deadline that is over, the
first attempt is the only one, and nothing is called.
-/
theorem poll_faithful (x : Executor σ τ) (c : Config) (p : Polling) (s : σ) :
    (∀ r s', x.poll c p s = (some r, s') ↔
      ∃ n < Polling.maxAttempts, p.StopsAt x.clock (x.attempt c p.deadline) s n r ∧
        s' = p.ended x.clock (x.attempt c p.deadline)
          (p.begun x.clock (x.attempt c p.deadline) s n)) ∧
    (∀ attempts last, (x.poll c p s).1 = some (.error (.timeout attempts last)) →
      p.deadline ≠ Deadline.never ∧ last.isRecoverable = true ∧
        ∀ attempts' last', last ≠ .timeout attempts' last') ∧
    (x.Overdue c p.deadline s →
      p.StopsAt x.clock (x.attempt c p.deadline) s 0 (.error (x.curtailed c s).1) ∧
      x.poll c p s = (some (.error (x.curtailed c s).1), (x.curtailed c s).2) ∧
      ((x.curtailed c s).1 = .selfRegistration c.source.kubeconfig.text c.source.context ∨
        (∃ e, (x.curtailed c s).1 = .config e) ∨
        (∃ server reason, (x.curtailed c s).1 = .invalidEndpoint c.source.context server reason) ∨
        (x.curtailed c s).1 = .timeout 1 (.deadlineExceeded "connect to source"))) := by
  refine ⟨fun r s' => Polling.run_eq_some_iff s s' r, ?_, ?_⟩
  . intro attempts last h
    obtain ⟨hdeadline, hrecoverable⟩ := x.eq_of_poll_timeout c h
    refine ⟨hdeadline, hrecoverable, ?_⟩
    rintro attempts' last' rfl
    cases hrecoverable
  . intro hoverdue
    obtain ⟨hends, hended⟩ := ends_of_overdue hoverdue
    have hstops : p.StopsAt x.clock (x.attempt c p.deadline) s 0 (.error (x.curtailed c s).1) :=
      ⟨hends, by omega⟩
    refine ⟨hstops, ?_, x.curtailed_cases c s⟩
    exact (Polling.run_eq_some_iff s _ _).mpr ⟨0, by decide, hstops, hended.symm⟩

theorem poll_faithful_of_sample :
    let p : Polling := ⟨10, ⟨some 0⟩⟩
    (Scenario.executor Scenario.sample).Overdue Scenario.sample p.deadline Scenario.sampleStart ∧
      Scenario.poll .stores Scenario.sample p Scenario.sampleStart =
        (some (.error (.timeout 1 (.deadlineExceeded "connect to source"))), Scenario.sampleStart) := by
  intro p
  have hoverdue : (Scenario.executor Scenario.sample).Overdue Scenario.sample p.deadline
      Scenario.sampleStart := ⟨rfl, rfl⟩
  have hself : Scenario.sample.isSelfRegistration = false := by decide +kernel
  have hcurtailed : (Scenario.executor Scenario.sample).curtailed Scenario.sample
      Scenario.sampleStart =
        (.timeout 1 (.deadlineExceeded "connect to source"), Scenario.sampleStart) :=
    Scenario.curtailed_executor (Config.premature?_of_host hself Scenario.resolveHost_sample)
  obtain ⟨-, -, hpolls⟩ := poll_faithful (Scenario.executor Scenario.sample) Scenario.sample p
    Scenario.sampleStart
  obtain ⟨-, hpoll, -⟩ := hpolls hoverdue
  refine ⟨hoverdue, ?_⟩
  rw [Scenario.poll_stores_eq, hpoll, hcurtailed]

end Registration.Executor

end ClusterRegistration
