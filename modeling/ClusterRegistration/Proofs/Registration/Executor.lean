import ClusterRegistration.Proofs.Registration.Polling
import ClusterRegistration.Proofs.Registration.Transcript
import ClusterRegistration.Registration.Servers

/-!
This module contains executors: whatever it is that attempts a registration, and polls.
-/

namespace ClusterRegistration.Registration

/--
A clock, files, and a way of performing actions, with a session that lasts for an attempt.
-/
structure Executor (σ τ : Type) where
  clock : Clock (StateM σ)
  read : Path → StateM σ (Except FileError Bytes)
  session : τ
  perform : (a : Action) → StateT τ (StateM σ) (Option a.Outcome)

variable {σ τ : Type}

namespace Executor

def attempt (x : Executor σ τ) (c : Config) (deadline : Deadline) : StateM σ (Except Error Unit) := do
  let content ← x.read c.source.kubeconfig
  let script := c.attempt content
  (script.run x.clock.lift deadline x.perform).run' x.session

def poll (x : Executor σ τ) (c : Config) (p : Polling) : StateM σ (Option (Except Error Unit)) :=
  p.run x.clock (x.attempt c p.deadline)

end Executor

def Executor.ofMachine (machine : Machine (StateM σ)) : Executor σ Sessions :=
  ⟨machine.clock, machine.read, Sessions.none, performServers machine⟩

theorem registerServers_eq (machine : Machine (StateM σ)) (c : Config) (deadline : Deadline) :
    registerServers machine c deadline = (Executor.ofMachine machine).attempt c deadline :=
  rfl

section Session

variable {α β : Type}

theorem stateT_bind (x : StateT τ (StateM σ) α) (f : α → StateT τ (StateM σ) β) (t : τ) (s : σ) :
    (x >>= f) t s = f (x t s).1.1 (x t s).1.2 (x t s).2 :=
  rfl

variable {clock : Clock (StateT τ (StateM σ))} {deadline : Deadline}
  {perform : (a : Action) → StateT τ (StateM σ) (Option a.Outcome)}

theorem eq_of_guard_error {operation : String} {call : StateT τ (StateM σ) (Option α)} {t : τ} {s : σ}
    {e : Error} (h : (deadline.guard clock operation call t s).1.1 = .error e) :
    e = .deadlineExceeded operation := by
  rw [Deadline.guard, stateT_bind] at h
  split at h
  . cases h
    rfl
  . rw [stateT_bind] at h
    generalize call (clock.now t s).1.2 (clock.now t s).2 = called at h
    obtain ⟨⟨answer, t'⟩, s'⟩ := called
    cases answer with
    | some a => cases h
    | none =>
      cases h
      rfl

theorem guard_lift_of_over {clock : Clock (StateM σ)} {deadline : Deadline} {operation : String}
    {call : StateT τ (StateM σ) (Option α)} {t : τ} {s : σ}
    (h : deadline.isOver (clock.now s).1 = true) :
    deadline.guard clock.lift operation call t s =
      ((.error (.deadlineExceeded operation), t), (clock.now s).2) := by
  have hnow : (Clock.lift clock : Clock (StateT τ (StateM σ))).now t s =
      (((clock.now s).1, t), (clock.now s).2) := rfl
  rw [Deadline.guard, stateT_bind, hnow, if_pos h]
  rfl

theorem guard_lift {clock : Clock (StateM σ)} {deadline : Deadline} {operation : String}
    (call : StateM σ (Option α)) (t : τ) (s : σ) :
    deadline.guard clock.lift operation (liftM call : StateT τ (StateM σ) (Option α)) t s =
      (((deadline.guard clock operation call s).1, t), (deadline.guard clock operation call s).2) := by
  have hnow (s : σ) : (Clock.lift clock : Clock (StateT τ (StateM σ))).now t s =
      (((clock.now s).1, t), (clock.now s).2) := rfl
  have hcall (s : σ) : (liftM call : StateT τ (StateM σ) (Option α)) t s =
      (((call s).1, t), (call s).2) := rfl
  rw [Deadline.guard, Deadline.guard, stateT_bind, stateM_bind, hnow]
  cases deadline.isOver (clock.now s).1 with
  | true => rfl
  | false =>
    simp only [Bool.false_eq_true, ↓reduceIte]
    rw [stateT_bind, stateM_bind, hcall]
    cases (call (clock.now s).2).1 with
    | some a => rfl
    | none => rfl

theorem run_lift {clock : Clock (StateM σ)} {deadline : Deadline}
    (perform : (a : Action) → StateM σ (Option a.Outcome)) (script : Script α) (t : τ) (s : σ) :
    script.run clock.lift deadline
        (fun a => (liftM (perform a) : StateT τ (StateM σ) (Option a.Outcome))) t s =
      (((script.run clock deadline perform s).1, t), (script.run clock deadline perform s).2) := by
  induction script generalizing s with
  | done result => rfl
  | act a next ih =>
    rw [Script.run, Script.run, stateT_bind, stateM_bind, guard_lift]
    cases (deadline.guard clock a.operation (perform a) s).1 with
    | ok o => exact ih o _
    | error e => rfl

variable (clock deadline perform) in
theorem Script.run_throughout {may : List Event → Action → Prop}
    {post : List Event → Except Error α → Prop} {script : Script α} {past : List Event}
    (h : script.Throughout may post past) (t : τ) (s : σ) :
    (∃ past', post past' (script.run clock deadline perform t s).1.1) ∨
      ∃ operation, (script.run clock deadline perform t s).1.1 =
        .error (.deadlineExceeded operation) := by
  -- On the script. Whatever a call gives, what is past grows by it.
  induction script generalizing past t s with
  | done result => exact .inl ⟨past, h⟩
  | act a next ih =>
    obtain ⟨-, hnext⟩ := h
    rw [run, stateT_bind]
    cases hguard : (deadline.guard clock a.operation (perform a) t s).1.1 with
    | ok o => exact ih o (hnext o) _ _
    | error e => exact .inr ⟨a.operation, congrArg Except.error (eq_of_guard_error hguard)⟩

end Session

namespace Executor

def prepared (x : Executor σ τ) (c : Config) (s : σ) : σ :=
  (x.read c.source.kubeconfig s).2

variable (x : Executor σ τ) (c : Config)

theorem attempt_eq (deadline : Deadline) (s : σ) :
    x.attempt c deadline s =
      let ended := (c.attempt (x.read c.source.kubeconfig s).1).run x.clock.lift deadline x.perform
        x.session (x.prepared c s)
      (ended.1.1, ended.2) :=
  rfl

theorem attempt_ne_timeout (deadline : Deadline) (s : σ) (attempts : Nat) (last : Error) :
    (x.attempt c deadline s).1 ≠ .error (.timeout attempts last) := by
  have h := Script.run_throughout x.clock.lift deadline x.perform
    (c.attempt_throughout (x.read c.source.kubeconfig s).1) x.session (x.prepared c s)
  rw [attempt_eq]
  -- The script itself tells no timeout, and neither does a guard that gives it up.
  rcases h with ⟨past, hconcludes⟩ | ⟨operation, hr⟩
  . exact hconcludes.untimed attempts last
  . rw [hr]
    nofun

theorem eq_of_poll_timeout {p : Polling} {s : σ} {attempts : Nat} {last : Error}
    (h : (x.poll c p s).1 = some (.error (.timeout attempts last))) :
    p.deadline ≠ Deadline.never ∧ last.isRecoverable = true := by
  have hrun : x.poll c p s = (some (.error (.timeout attempts last)), (x.poll c p s).2) :=
    Prod.ext h rfl
  obtain ⟨n, -, ⟨hends, -⟩, -⟩ := (Polling.run_eq_some_iff s _ _).mp hrun
  generalize houtcome : p.outcome x.clock (x.attempt c p.deadline) s n = outcome at hends
  cases hends with
  | fatal e hfatal => exact absurd houtcome (x.attempt_ne_timeout c p.deadline _ attempts last)
  | timeout e moment hrecoverable hmoment hlate =>
    refine ⟨?_, hrecoverable⟩
    intro hnever
    rw [hnever] at hmoment
    cases hmoment

section Overdue

variable {x c} {deadline : Deadline} {s : σ}

structure Overdue (x : Executor σ τ) (c : Config) (deadline : Deadline) (s : σ) : Prop where
  before : deadline.isOver (x.clock.now (x.prepared c s)).1 = true
  after : deadline.isOver (x.clock.now (x.clock.now (x.prepared c s)).2).1 = true

theorem attempt_of_over (h : deadline.isOver (x.clock.now (x.prepared c s)).1 = true) :
    x.attempt c deadline s =
      match c.premature? (x.read c.source.kubeconfig s).1 with
      | some e => (.error e, x.prepared c s)
      | none =>
        (.error (.deadlineExceeded "connect to source"), (x.clock.now (x.prepared c s)).2) := by
  rw [attempt_eq]
  cases hpremature : c.premature? (x.read c.source.kubeconfig s).1 with
  | some e =>
    rw [Config.attempt_of_premature hpremature]
    rfl
  | none =>
    obtain ⟨host, hself, hhost⟩ := Config.exists_host_of_not_premature hpremature
    rw [Config.attempt_eq_of_host hself hhost]
    simp only [Script.connect, Script.act_bind, Script.run, stateT_bind, Action.operation,
      guard_lift_of_over h]
    rfl

def curtailed (x : Executor σ τ) (c : Config) (s : σ) : Error × σ :=
  match c.premature? (x.read c.source.kubeconfig s).1 with
  | some e => (e, x.prepared c s)
  | none =>
    (.timeout 1 (.deadlineExceeded "connect to source"),
      (x.clock.now (x.clock.now (x.prepared c s)).2).2)

theorem curtailed_cases (x : Executor σ τ) (c : Config) (s : σ) :
    (x.curtailed c s).1 = .selfRegistration c.source.kubeconfig.text c.source.context ∨
      (∃ e, (x.curtailed c s).1 = .config e) ∨
      (∃ server reason, (x.curtailed c s).1 = .invalidEndpoint c.source.context server reason) ∨
      (x.curtailed c s).1 = .timeout 1 (.deadlineExceeded "connect to source") := by
  unfold curtailed
  cases hpremature : c.premature? (x.read c.source.kubeconfig s).1 with
  | none => exact .inr (.inr (.inr rfl))
  | some e =>
    rcases Config.premature?_cases hpremature with he | he | he
    . exact .inl he
    . exact .inr (.inl he)
    . exact .inr (.inr (.inl he))

theorem ends_of_overdue {p : Polling} (h : x.Overdue c p.deadline s) :
    p.Ends 1 (p.reading x.clock (x.attempt c p.deadline) s 0)
        (p.outcome x.clock (x.attempt c p.deadline) s 0) (.error (x.curtailed c s).1) ∧
      p.ended x.clock (x.attempt c p.deadline) s = (x.curtailed c s).2 := by
  have hattempt := attempt_of_over h.before
  unfold Polling.ended Polling.reading Polling.outcome curtailed
  simp only [Polling.begun]
  rw [hattempt]
  cases hpremature : c.premature? (x.read c.source.kubeconfig s).1 with
  | some e =>
    have hfatal : e.isRecoverable = false := by
      rcases Config.premature?_cases hpremature with rfl | ⟨ce, rfl⟩ | ⟨server, reason, rfl⟩
      . rfl
      . rfl
      . rfl
    refine ⟨Polling.Ends.fatal e hfatal, ?_⟩
    unfold Polling.consulted
    simp only [hfatal, Bool.false_and, Bool.false_eq_true, ↓reduceIte]
  | none =>
    have hlate := h.after
    unfold Deadline.isOver at hlate
    cases hmoment : p.deadline.moment? with
    | none =>
      rw [hmoment] at hlate
      cases hlate
    | some moment =>
      rw [hmoment] at hlate
      have hlate : moment ≤ (x.clock.now (x.clock.now (x.prepared c s)).2).1 := by simpa using hlate
      refine ⟨Polling.Ends.timeout _ moment rfl hmoment (Nat.le_add_right_of_le hlate), ?_⟩
      unfold Polling.consulted
      rw [hmoment]
      rfl

end Overdue

end Executor

end ClusterRegistration.Registration
