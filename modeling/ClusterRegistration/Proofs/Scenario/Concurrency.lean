import ClusterRegistration.Proofs.Registration.Transcript
import ClusterRegistration.Proofs.Scenario.Faults

/-!
This module contains attempts at registrations that are made at the same time: they take their actions
in any order, and others act in between.
-/

namespace ClusterRegistration.Scenario

open Registration

structure Underway where
  config : Config
  content : Except FileError Bytes
  deadline : Deadline
  rest : Script Unit

namespace Underway

def step (u : Underway) : Run (Underway × Option Event) := fun s =>
  match u.rest with
  | .done _ => ((u, none), s)
  | .act a next =>
    match u.deadline.guard clock a.operation (perform u.config.target a) s with
    | (.ok o, s') => (({ u with rest := next o }, some ⟨a, o⟩), s')
    | (.error e, s') => (({ u with rest := .done (.error e) }, none), s')

def finish (u : Underway) : Run (Except Registration.Error Unit) :=
  u.rest.run clock u.deadline (perform u.config.target)

end Underway

structure Concurrent where
  scenario : Scenario
  attempts : List Underway
  past : List (Nat × Event)

inductive Move where
  | begin (c : Config) (deadline : Deadline)
  | act (i : Nat)
  | edit (e : Edit)
  | wait (time : Nat)

namespace Concurrent

def start (s : Scenario) : Concurrent :=
  ⟨s, [], []⟩

def move (t : Concurrent) : Move → Concurrent
  | .begin c deadline =>
    let content := t.scenario.files.read c.source.kubeconfig
    { t with attempts := t.attempts ++ [⟨c, content, deadline, c.attempt content⟩] }
  | .act i =>
    match t.attempts[i]? with
    | none => t
    | some u =>
      let ((u', event?), s') := u.step t.scenario
      ⟨s', t.attempts.set i u', t.past ++ event?.toList.map (fun e => (i, e))⟩
  | .edit e => { t with scenario := (e.apply t.scenario).2 }
  | .wait time => { t with scenario := (clock.sleep time t.scenario).2 }

def run (t : Concurrent) (ms : List Move) : Concurrent :=
  ms.foldl move t

def pastOf (t : Concurrent) (i : Nat) : List Event :=
  t.past.filterMap (fun e => if e.1 = i then some e.2 else none)

end Concurrent

section Steps

variable {u : Underway} {s s' : Scenario} {a : Action} {next : a.Outcome → Script Unit}

theorem step_of_done {r : Except Registration.Error Unit} (h : u.rest = .done r) (s : Scenario) :
    u.step s = ((u, none), s) := by
  unfold Underway.step
  rw [h]

theorem step_of_ok (h : u.rest = .act a next) {o : a.Outcome}
    (hguard : u.deadline.guard clock a.operation (perform u.config.target a) s = (.ok o, s')) :
    u.step s = (({ u with rest := next o }, some ⟨a, o⟩), s') := by
  unfold Underway.step
  rw [h]
  simp only [hguard]

theorem step_of_error (h : u.rest = .act a next) {e : Registration.Error}
    (hguard : u.deadline.guard clock a.operation (perform u.config.target a) s = (.error e, s')) :
    u.step s = (({ u with rest := .done (.error e) }, none), s') := by
  unfold Underway.step
  rw [h]
  simp only [hguard]

end Steps

section Attempts

variable {us : List Underway} {u u' v : Underway} {i j : Nat}

theorem set_of_some (h : us[i]? = some u) : us.set i u = us := by
  obtain ⟨hi, rfl⟩ := List.getElem?_eq_some_iff.mp h
  apply List.set_getElem_self

theorem of_mem_append (h : (us ++ [v])[i]? = some u) : us[i]? = some u ∨ i = us.length ∧ u = v := by
  rw [List.getElem?_append] at h
  split at h
  . exact .inl h
  . next hge =>
    rw [List.getElem?_singleton] at h
    split at h
    . cases h
      exact .inr ⟨by omega, rfl⟩
    . cases h

theorem of_mem_set (hu : us[i]? = some u) (h : (us.set i v)[j]? = some u') :
    j = i ∧ u' = v ∨ j ≠ i ∧ us[j]? = some u' := by
  by_cases hj : j = i
  . subst hj
    rw [List.getElem?_set_self (List.getElem?_eq_some_iff.mp hu).1] at h
    cases h
    exact .inl ⟨rfl, rfl⟩
  . rw [List.getElem?_set_ne (Ne.symm hj)] at h
    exact .inr ⟨hj, h⟩

end Attempts

section Finish

variable {t : Concurrent} {i : Nat} {u : Underway}

theorem move_act_of_some (h : t.attempts[i]? = some u) :
    t.move (.act i) = ⟨(u.step t.scenario).2, t.attempts.set i (u.step t.scenario).1.1,
      t.past ++ (u.step t.scenario).1.2.toList.map (fun e => (i, e))⟩ := by
  simp only [Concurrent.move, h]
  rfl

theorem finish_begun (c : Config) (deadline : Deadline) (s : Scenario) :
    Underway.finish ⟨c, s.files.read c.source.kubeconfig, deadline,
      c.attempt (s.files.read c.source.kubeconfig)⟩ s = register .stores c deadline s :=
  rfl

theorem exists_acts (h : t.attempts[i]? = some u) :
    ∃ n, (t.run (List.replicate n (.act i))).scenario = (u.finish t.scenario).2 ∧
      (t.run (List.replicate n (.act i))).attempts =
        t.attempts.set i { u with rest := .done (u.finish t.scenario).1 } := by
  obtain ⟨c, content, deadline, rest⟩ := u
  unfold Underway.finish
  -- On what is left of the script. Every call is one move, even the one that is given up.
  induction rest generalizing t with
  | done r => exact ⟨0, rfl, (set_of_some h).symm⟩
  | act a next ih =>
    have hi : i < t.attempts.length := (List.getElem?_eq_some_iff.mp h).1
    generalize hguard : deadline.guard clock a.operation (perform c.target a) t.scenario = answered
    obtain ⟨r, s'⟩ := answered
    cases r with
    | error e =>
      have hrun : (Script.act a next).run clock deadline (perform c.target) t.scenario = _ :=
        Carrier.run_act_of_error hguard
      refine ⟨1, ?_, ?_⟩
      . show (t.move (.act i)).scenario = _
        rw [move_act_of_some h, step_of_error rfl hguard, hrun]
      . show (t.move (.act i)).attempts = _
        rw [move_act_of_some h, step_of_error rfl hguard, hrun]
    | ok o =>
      have hrun : (Script.act a next).run clock deadline (perform c.target) t.scenario = _ :=
        Carrier.run_act_of_ok hguard
      have hmove : t.move (.act i) =
          ⟨s', t.attempts.set i ⟨c, content, deadline, next o⟩, t.past ++ [(i, ⟨a, o⟩)]⟩ := by
        rw [move_act_of_some h, step_of_ok rfl hguard]
        rfl
      have hnext : (t.move (.act i)).attempts[i]? = some ⟨c, content, deadline, next o⟩ := by
        rw [hmove]
        exact List.getElem?_set_self hi
      obtain ⟨n, hscenario, hattempts⟩ := ih o hnext
      refine ⟨n + 1, ?_, ?_⟩
      . show ((t.move (.act i)).run (List.replicate n (.act i))).scenario = _
        rw [hscenario, hmove, hrun]
      . show ((t.move (.act i)).run (List.replicate n (.act i))).attempts = _
        rw [hattempts, hmove, hrun]
        apply List.set_set

theorem pastOf_append (t : Concurrent) (s : Scenario) (us : List Underway) (i j : Nat)
    (es : List Event) :
    (Concurrent.mk s us (t.past ++ es.map (fun e => (i, e)))).pastOf j =
      if i = j then t.pastOf j ++ es else t.pastOf j := by
  unfold Concurrent.pastOf
  rw [List.filterMap_append]
  by_cases h : i = j
  . simp [h, List.filterMap_map]
  . simp [h, List.filterMap_map]

end Finish

end ClusterRegistration.Scenario
