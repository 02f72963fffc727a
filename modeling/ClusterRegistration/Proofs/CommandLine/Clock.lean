import ClusterRegistration.Proofs.CommandLine.Arguments
import ClusterRegistration.Proofs.Registration.Polling

namespace ClusterRegistration.CommandLine

open Registration

def Obstacle.IsReported (o : Obstacle) : Prop :=
  ∃ reason, ∀ process environment,
    o.outcome process environment = { exitCode := 1, stderr := "invalid arguments: " ++ reason ++ "\n" }

theorem not_isReported_breakdown (b : Breakdown) : ¬(Obstacle.breakdown b).IsReported := by
  rintro ⟨reason, h⟩
  have hcode : 101 = 1 := congrArg Outcome.exitCode (h default fun _ => none)
  cases hcode

section Moment

variable {now seconds : Nat}

theorem le_latest_iff {moment : Nat} : moment ≤ Clock.latest ↔ moment / 1000 < Nat.pow 2 63 := by
  have hpos : 0 < Nat.pow 2 63 := by decide
  unfold Clock.latest
  generalize Nat.pow 2 63 = limit at hpos ⊢
  omega

theorem after?_of_lt (h : now / 1000 + seconds < Nat.pow 2 63) :
    Clock.after? now (seconds * 1000) = some (now + seconds * 1000) := by
  have hle : now + seconds * 1000 ≤ Clock.latest := by
    rw [le_latest_iff]
    omega
  exact if_pos hle

theorem after?_of_le (h : Nat.pow 2 63 ≤ now / 1000 + seconds) : Clock.after? now (seconds * 1000) = none := by
  have hlarge : ¬now + seconds * 1000 ≤ Clock.latest := by
    rw [le_latest_iff]
    omega
  exact if_neg hlarge

end Moment

section Job

variable {environment : Kubeconfig.Environment} {values : List (Setting × String)} {now : Nat}

theorem isReported_of_kubeconfigOf {s : Setting} {o : Obstacle} (h : kubeconfigOf environment values s = .error o) :
    o.IsReported := by
  unfold kubeconfigOf at h
  split at h
  . cases h
  . cases hdefault : environment.defaultPath with
    | ok path =>
      rw [hdefault] at h
      cases h
    | error e =>
      rw [hdefault] at h
      cases h
      exact ⟨e.message, fun _ _ => rfl⟩

theorem isReported_of_nameOf {o : Obstacle} (h : nameOf values = .error o) : o.IsReported := by
  unfold nameOf at h
  dsimp only at h
  split at h
  . cases h
    exact ⟨"--dest-name is required, source context has no usable name", fun _ _ => rfl⟩
  . cases h

theorem ne_of_nameOf {name : String} (h : nameOf values = .ok name) : name ≠ "" := by
  unfold nameOf at h
  dsimp only at h
  split at h
  . cases h
  . next hname =>
    cases h
    exact fun hempty => hname (String.isEmpty_iff.mpr hempty)

theorem isReported_of_configOf {o : Obstacle} (h : configOf environment values = .error o) : o.IsReported := by
  unfold configOf at h
  rcases eq_error_or_exists_of_bind h with hsource | ⟨source, -, h⟩
  . exact isReported_of_kubeconfigOf hsource
  rcases eq_error_or_exists_of_bind h with hdestination | ⟨destination, -, h⟩
  . exact isReported_of_kubeconfigOf hdestination
  rcases eq_error_or_exists_of_bind h with hname | ⟨name, -, h⟩
  . exact isReported_of_nameOf hname
  . cases h

theorem ne_of_configOf {config : Config} (h : configOf environment values = .ok config) :
    config.publication.name ≠ "" := by
  unfold configOf at h
  obtain ⟨source, -, h⟩ := exists_of_bind_eq_ok h
  obtain ⟨destination, -, h⟩ := exists_of_bind_eq_ok h
  obtain ⟨name, hname, h⟩ := exists_of_bind_eq_ok h
  cases h
  exact ne_of_nameOf hname

variable {σ : Type} {clock : Clock (StateM σ)} {s : σ}

theorem jobOf_of_error {o : Obstacle} (h : configOf environment values = .error o) :
    jobOf clock environment values s = (.error o, s) := by
  rw [jobOf, h]
  rfl

theorem jobOf_of_lt {config : Config} (h : configOf environment values = .ok config)
    (hlt : (clock.now s).1 / 1000 + numberOf values .timeout < Nat.pow 2 63) :
    jobOf clock environment values s =
      (.ok ⟨config, pollingUntil values ((clock.now s).1 + numberOf values .timeout * 1000)⟩, (clock.now s).2) := by
  rw [jobOf, h]
  dsimp only
  rw [stateM_bind, after?_of_lt hlt]
  rfl

theorem jobOf_of_le {config : Config} (h : configOf environment values = .ok config)
    (hle : Nat.pow 2 63 ≤ (clock.now s).1 / 1000 + numberOf values .timeout) :
    jobOf clock environment values s = (.error (.breakdown .clockOverflow), (clock.now s).2) := by
  rw [jobOf, h]
  dsimp only
  rw [stateM_bind, after?_of_le hle]
  rfl

end Job

section Run

variable {σ : Type} {machine : Machine (StateM σ)} {environment : String → Option String}
  {arguments : List String} {values : List (Setting × String)}

def kubeconfigsOf (environment : String → Option String) : Kubeconfig.Environment :=
  ⟨environment "KUBECONFIG", environment "HOME"⟩

theorem run_of_job {job : Job} {s s' : σ} (h : interpret environment arguments = .ok (.run values))
    (hjob : jobOf machine.clock (kubeconfigsOf environment) values s = (.ok job, s')) :
    run machine environment arguments s = work machine environment job s' := by
  unfold kubeconfigsOf at hjob
  rw [run, h]
  simp only [stateM_bind, hjob]

theorem run_of_obstacle {o : Obstacle} {s s' : σ} (h : interpret environment arguments = .ok (.run values))
    (ho : jobOf machine.clock (kubeconfigsOf environment) values s = (.error o, s')) :
    run machine environment arguments s = (o.outcome machine.process environment, s') := by
  unfold kubeconfigsOf at ho
  rw [run, h]
  simp only [stateM_bind, ho]
  rfl

end Run

section Polling

variable {σ : Type}

/--
Polling until a moment, as far as the attempt after `n` others.
-/
structure KeepsTime (p : Polling) (clock : Clock (StateM σ)) (attempt : StateM σ (Except Error Unit)) (s : σ)
    (moment n : Nat) : Prop where
  earlier : ∀ m < n, p.reading clock attempt s m + p.interval < moment
  test : (p.leavesNoTime clock (attempt (p.begun clock attempt s n)).2).1 = true ↔
    moment ≤ p.reading clock attempt s n + p.interval
  /-- It would take a clock that is about to leave its range. -/
  range : p.reading clock attempt s n + Nat.pow 2 64 ≤ Clock.latest →
    Clock.after? (p.reading clock attempt s n) p.interval = some (p.reading clock attempt s n + p.interval)

theorem keepsTime_of_reaches {clock : Clock (StateM σ)} {attempt : StateM σ (Except Error Unit)}
    {values : List (Setting × String)} {moment n : Nat} {s : σ}
    (hinterval : numberOf values .pollInterval < Nat.pow 2 64)
    (h : (pollingUntil values moment).Reaches clock attempt s n) :
    KeepsTime (pollingUntil values moment) clock attempt s moment n := by
  constructor
  case earlier => exact h.lt_deadline rfl
  case test =>
    rw [Polling.leavesNoTime_iff]
    simp [pollingUntil, Polling.reading]
  case range =>
    intro hrange
    have hp : (pollingUntil values moment).interval < Nat.pow 2 64 := hinterval
    exact if_pos (by omega)

end Polling

/--
The law of the clock. Every timeout and every time between attempts that 64 bits can hold is accepted, and the numbers
in use are those that were given. What else keeps a command from starting is reported as an error in its arguments, and
then the clock is not asked. Otherwise the name in the destination is not empty, and the deadline is exactly the timeout
from now, as long as that is a moment of the clock. If it is none, the program breaks down, and no error in its
arguments is reported. Polling leaves the range of the clock only where the clock itself is about to leave it.
-/
theorem clock_law {σ : Type} (machine : Machine (StateM σ)) (environment : String → Option String)
    (arguments : List String) (values : List (Setting × String))
    (h : interpret environment arguments = .ok (.run values)) :
    (∀ timeout < Nat.pow 2 64, ∀ interval < Nat.pow 2 64, ∃ arguments' values',
      interpret environment arguments' = .ok (.run values') ∧
        numberOf values' .timeout = timeout ∧ numberOf values' .pollInterval = interval) ∧
      Says (valueOf values .timeout) (numberOf values .timeout) ∧
      Says (valueOf values .pollInterval) (numberOf values .pollInterval) ∧
      ∀ s : σ,
        let kubeconfigs := kubeconfigsOf environment
        let now := (machine.clock.now s).1
        let s' := (machine.clock.now s).2
        (∀ o, configOf kubeconfigs values = .error o →
          o.IsReported ∧ jobOf machine.clock kubeconfigs values s = (.error o, s) ∧
            run machine environment arguments s = (o.outcome machine.process environment, s)) ∧
          ∀ config, configOf kubeconfigs values = .ok config →
            config.publication.name ≠ "" ∧
              (now / 1000 + numberOf values .timeout < Nat.pow 2 63 →
                let moment := now + numberOf values .timeout * 1000
                let p := pollingUntil values moment
                moment ≤ Clock.latest ∧ jobOf machine.clock kubeconfigs values s = (.ok ⟨config, p⟩, s') ∧
                  run machine environment arguments s = work machine environment ⟨config, p⟩ s' ∧
                  ∀ n, p.Reaches machine.clock (registerServers machine config p.deadline) s' n →
                    KeepsTime p machine.clock (registerServers machine config p.deadline) s' moment n) ∧
              (Nat.pow 2 63 ≤ now / 1000 + numberOf values .timeout →
                let o := Obstacle.breakdown .clockOverflow
                ¬o.IsReported ∧ jobOf machine.clock kubeconfigs values s = (.error o, s') ∧
                  run machine environment arguments s = (o.outcome machine.process environment, s')) := by
  have htimeout := says_numberOf h (s := .timeout) rfl
  have hinterval := says_numberOf h (s := .pollInterval) rfl
  refine ⟨?_, htimeout, hinterval, ?_⟩
  . exact fun timeout ht interval hi => exists_interpret_of_numbers environment ht hi
  . intro s kubeconfigs now s'
    constructor
    . intro o ho
      have hjob : jobOf machine.clock kubeconfigs values s = (.error o, s) := jobOf_of_error ho
      exact ⟨isReported_of_configOf ho, hjob, run_of_obstacle h hjob⟩
    . intro config hconfig
      refine ⟨ne_of_configOf hconfig, ?_, ?_⟩
      . intro hlt moment p
        have hjob : jobOf machine.clock kubeconfigs values s = (.ok ⟨config, p⟩, s') :=
          jobOf_of_lt hconfig hlt
        have hmoment : moment ≤ Clock.latest := by
          rw [le_latest_iff]
          omega
        exact ⟨hmoment, hjob, run_of_job h hjob, fun n hn => keepsTime_of_reaches hinterval.bound hn⟩
      . intro hle o
        have hjob : jobOf machine.clock kubeconfigs values s = (.error o, s') :=
          jobOf_of_le hconfig hle
        exact ⟨not_isReported_breakdown _, hjob, run_of_obstacle h hjob⟩

section Sample

def bareMachine : Machine (StateM Nat) where
  clock := ⟨get, fun time => modify (· + time)⟩
  process := ⟨9, "", fun _ => ""⟩
  read _ := pure (.error .notFound)
  send _ := pure (.error unreachable)

def sampleEnvironment (name : String) : Option String :=
  if name = "KUBECONFIG" then some "config" else none

theorem clock_law_of_sample :
    let arguments :=
      ["--source-context", "kind-source", "--dest-context=kind-dest", "--timeout", "+90", "--poll-interval", "2000"]
    let values := [(.sourceContext, "kind-source"), (.destContext, "kind-dest"), (.timeout, "+90"),
      (.pollInterval, "2000")]
    let config : Config :=
      ⟨⟨⟨"config"⟩, "kind-source"⟩, ⟨⟨"config"⟩, "kind-dest"⟩, ⟨"k8ssandra-operator", "k8ssandra-operator"⟩,
        ⟨"k8ssandra-operator", "kind-source"⟩⟩
    interpret sampleEnvironment arguments = .ok (.run values) ∧
      run bareMachine sampleEnvironment arguments 1000000 =
        work bareMachine sampleEnvironment ⟨config, ⟨2000, ⟨some 1090000⟩⟩⟩ 1000000 := by
  intro arguments values config
  have haccept : interpret sampleEnvironment arguments = .ok (.run values) := by decide +kernel
  have hconfig : configOf (kubeconfigsOf sampleEnvironment) values = .ok config := by decide +kernel
  have htimeout : numberOf values .timeout = 90 := by decide +kernel
  have hpolling : pollingUntil values 1090000 = ⟨2000, ⟨some 1090000⟩⟩ := by decide +kernel
  have hnow : bareMachine.clock.now 1000000 = (1000000, 1000000) := rfl
  obtain ⟨-, -, -, hlaw⟩ := clock_law bareMachine sampleEnvironment arguments values haccept
  obtain ⟨-, hstart, -⟩ := (hlaw 1000000).2 config hconfig
  simp only [hnow, htimeout] at hstart
  obtain ⟨-, -, hrun, -⟩ := hstart (by decide)
  exact ⟨haccept, hpolling ▸ hrun⟩

theorem greatest_timeout_out_of_range :
    let arguments :=
      ["--source-context", "kind-source", "--dest-context", "kind-source", "--timeout", "18446744073709551615"]
    let values :=
      [(.sourceContext, "kind-source"), (.destContext, "kind-source"), (.timeout, "18446744073709551615")]
    let o := Obstacle.breakdown .clockOverflow
    interpret sampleEnvironment arguments = .ok (.run values) ∧
      jobOf bareMachine.clock (kubeconfigsOf sampleEnvironment) values 1000000 = (.error o, 1000000) ∧
      ¬o.IsReported ∧
      run bareMachine sampleEnvironment arguments 1000000 =
        ({ exitCode := 101
           stderr := "\nthread 'main' (9) panicked at src/k8-register/src/bin/kubectl-register.rs:91:28:\n" ++
            "overflow when adding duration to instant\n" ++
            "note: run with `RUST_BACKTRACE=1` environment variable to display a backtrace\n" }, 1000000) := by
  intro arguments values o
  have haccept : interpret sampleEnvironment arguments = .ok (.run values) := by decide +kernel
  have hconfig : (configOf (kubeconfigsOf sampleEnvironment) values).isOk = true := by decide +kernel
  have hlarge : Nat.pow 2 63 ≤ (bareMachine.clock.now 1000000).1 / 1000 + numberOf values .timeout := by
    decide +kernel
  cases hcases : configOf (kubeconfigsOf sampleEnvironment) values with
  | error e =>
    rw [hcases] at hconfig
    cases hconfig
  | ok config =>
    have hjob : jobOf bareMachine.clock (kubeconfigsOf sampleEnvironment) values 1000000 = (.error o, 1000000) :=
      jobOf_of_le hcases hlarge
    refine ⟨haccept, hjob, not_isReported_breakdown _, ?_⟩
    rw [run_of_obstacle haccept hjob]
    refine congrArg (fun outcome => (outcome, 1000000)) ?_
    decide +kernel

end Sample

end ClusterRegistration.CommandLine
