import ClusterRegistration.Proofs.Registration.Hazard
import ClusterRegistration.Registration.Polling

namespace ClusterRegistration.Registration.Polling

inductive Ends (p : Polling) (attempts now : Nat) : Except Error Unit → Except Error Unit → Prop where
  | success : Ends p attempts now (.ok ()) (.ok ())
  | fatal (e : Error) (h : e.isRecoverable = false) : Ends p attempts now (.error e) (.error e)
  | timeout (e : Error) (moment : Nat) (hrecoverable : e.isRecoverable = true)
    (hmoment : p.deadline.moment? = some moment) (hlate : moment ≤ now + p.interval) :
    Ends p attempts now (.error e) (.error (.timeout attempts e))

theorem Ends.unique {p : Polling} {attempts now : Nat} {outcome r r' : Except Error Unit}
    (h : p.Ends attempts now outcome r) (h' : p.Ends attempts now outcome r') : r = r' := by
  cases h with
  | success =>
    cases h'
    rfl
  | fatal e hfatal =>
    cases h' with
    | fatal => rfl
    | timeout _ _ hrecoverable => exact absurd hrecoverable (hfatal ▸ Bool.false_ne_true)
  | timeout e moment hrecoverable hmoment hlate =>
    cases h' with
    | fatal _ hfatal => exact absurd hrecoverable (hfatal ▸ Bool.false_ne_true)
    | timeout => rfl

theorem exists_ends_of_late {p : Polling} {now moment : Nat} (hmoment : p.deadline.moment? = some moment)
    (hlate : moment ≤ now + p.interval) (attempts : Nat) (outcome : Except Error Unit) :
    ∃ r, p.Ends attempts now outcome r := by
  cases outcome with
  | ok => exact ⟨_, .success⟩
  | error e =>
    cases hrecoverable : e.isRecoverable with
    | true => exact ⟨_, .timeout e moment hrecoverable hmoment hlate⟩
    | false => exact ⟨_, .fatal e hrecoverable⟩

section Run

variable {σ : Type} (p : Polling) (clock : Clock (StateM σ)) (attempt : StateM σ (Except Error Unit))

def consulted (outcome : Except Error Unit) (s : σ) : σ :=
  match outcome with
  | .ok () => s
  | .error e => if e.isRecoverable && p.deadline.moment?.isSome then (clock.now s).2 else s

theorem leavesNoTime_iff (s : σ) :
    (p.leavesNoTime clock s).1 = true ↔
      ∃ moment, p.deadline.moment? = some moment ∧ moment ≤ (clock.now s).1 + p.interval := by
  unfold leavesNoTime
  cases p.deadline.moment? with
  | none => exact iff_of_false nofun nofun
  | some moment =>
    show decide (moment ≤ (clock.now s).1 + p.interval) = true ↔ _
    simp

theorem leavesNoTime_snd (s : σ) :
    (p.leavesNoTime clock s).2 = if p.deadline.moment?.isSome then (clock.now s).2 else s := by
  unfold leavesNoTime
  cases p.deadline.moment? with
  | none => rfl
  | some moment => rfl

variable {p clock} in
theorem conclude_of_fatal {attempts : Nat} {e : Error} (h : e.isRecoverable = false) :
    p.conclude clock attempts (.error e) = pure (some (.error e)) := by
  unfold conclude
  simp only [h, Bool.false_eq_true, ↓reduceIte]

variable {p clock} in
theorem conclude_of_recoverable {attempts : Nat} {e : Error} (h : e.isRecoverable = true) (s : σ) :
    p.conclude clock attempts (.error e) s =
      (if (p.leavesNoTime clock s).1 then some (.error (.timeout attempts e)) else none,
        (p.leavesNoTime clock s).2) := by
  unfold conclude
  simp only [h, ↓reduceIte]
  rw [stateM_bind]
  split
  . rfl
  . rfl

theorem conclude_eq_some_iff (attempts : Nat) (outcome r : Except Error Unit) (s : σ) :
    (p.conclude clock attempts outcome s).1 = some r ↔ p.Ends attempts (clock.now s).1 outcome r := by
  constructor
  . intro h
    cases outcome with
    | ok =>
      cases h
      exact .success
    | error e =>
      cases hrecoverable : e.isRecoverable with
      | false =>
        rw [conclude_of_fatal hrecoverable] at h
        cases h
        exact .fatal e hrecoverable
      | true =>
        rw [conclude_of_recoverable hrecoverable] at h
        split at h
        . next hlate =>
          obtain ⟨moment, hmoment, hlate⟩ := (p.leavesNoTime_iff clock s).mp hlate
          cases h
          exact .timeout e moment hrecoverable hmoment hlate
        . cases h
  . intro h
    cases h with
    | success => rfl
    | fatal e hfatal =>
      rw [conclude_of_fatal hfatal]
      rfl
    | timeout e moment hrecoverable hmoment hlate =>
      have hlate := (p.leavesNoTime_iff clock s).mpr ⟨moment, hmoment, hlate⟩
      rw [conclude_of_recoverable hrecoverable, if_pos hlate]

theorem conclude_snd (attempts : Nat) (outcome : Except Error Unit) (s : σ) :
    (p.conclude clock attempts outcome s).2 = p.consulted clock outcome s := by
  cases outcome with
  | ok => rfl
  | error e =>
    unfold consulted
    cases hrecoverable : e.isRecoverable with
    | false =>
      rw [conclude_of_fatal hrecoverable]
      simp only [hrecoverable, Bool.false_and, Bool.false_eq_true, ↓reduceIte]
      rfl
    | true =>
      rw [conclude_of_recoverable hrecoverable, leavesNoTime_snd]
      simp only [hrecoverable, Bool.true_and]

def ended (s : σ) : σ :=
  p.consulted clock (attempt s).1 (attempt s).2

def begun (s : σ) : Nat → σ
  | 0 => s
  | n + 1 => begun (clock.sleep p.interval (p.ended clock attempt s)).2 n

def outcome (s : σ) (n : Nat) : Except Error Unit :=
  (attempt (p.begun clock attempt s n)).1

def reading (s : σ) (n : Nat) : Nat :=
  (clock.now (attempt (p.begun clock attempt s n)).2).1

structure StopsAt (s : σ) (n : Nat) (r : Except Error Unit) : Prop where
  ends : p.Ends (n + 1) (p.reading clock attempt s n) (p.outcome clock attempt s n) r
  first : ∀ m < n, ∀ r', ¬ p.Ends (m + 1) (p.reading clock attempt s m) (p.outcome clock attempt s m) r'

def Reaches (s : σ) (n : Nat) : Prop :=
  ∀ m < n, ∀ r, ¬ p.Ends (m + 1) (p.reading clock attempt s m) (p.outcome clock attempt s m) r

variable {p clock attempt}

theorem Reaches.lt_deadline {s : σ} {n moment : Nat} (h : p.Reaches clock attempt s n)
    (hmoment : p.deadline.moment? = some moment) :
    ∀ m < n, p.reading clock attempt s m + p.interval < moment := by
  intro m hm
  refine Nat.lt_of_not_le fun hlate => ?_
  obtain ⟨r, hends⟩ := exists_ends_of_late hmoment hlate (m + 1) (p.outcome clock attempt s m)
  exact h m hm r hends

theorem runFrom_of_ends {before fuel : Nat} {s : σ} {r : Except Error Unit}
    (h : p.Ends (before + 1) (clock.now (attempt s).2).1 (attempt s).1 r) :
    p.runFrom clock attempt before (fuel + 1) s = (some r, p.ended clock attempt s) := by
  have hconclude := (p.conclude_eq_some_iff clock (before + 1) (attempt s).1 r (attempt s).2).mpr h
  rw [runFrom, stateM_bind, stateM_bind, hconclude, conclude_snd]
  rfl

theorem runFrom_of_not_ends {before fuel : Nat} {s : σ}
    (h : ∀ r, ¬ p.Ends (before + 1) (clock.now (attempt s).2).1 (attempt s).1 r) :
    p.runFrom clock attempt before (fuel + 1) s =
      p.runFrom clock attempt (before + 1) fuel
        (clock.sleep p.interval (p.ended clock attempt s)).2 := by
  have hconclude : (p.conclude clock (before + 1) (attempt s).1 (attempt s).2).1 = none := by
    rw [Option.eq_none_iff_forall_ne_some]
    exact fun r hr => h r ((p.conclude_eq_some_iff clock _ _ _ _).mp hr)
  rw [runFrom, stateM_bind, stateM_bind, hconclude, conclude_snd]
  rfl

variable (p clock attempt) in
structure StopsFrom (before : Nat) (s : σ) (n : Nat) (r : Except Error Unit) : Prop where
  ends : p.Ends (before + n + 1) (p.reading clock attempt s n) (p.outcome clock attempt s n) r
  first : ∀ m < n, ∀ r',
    ¬ p.Ends (before + m + 1) (p.reading clock attempt s m) (p.outcome clock attempt s m) r'

theorem stopsFrom_of_ends {before n : Nat} {s : σ} {r r' : Except Error Unit}
    (h : p.Ends (before + 1) (clock.now (attempt s).2).1 (attempt s).1 r') :
    p.StopsFrom clock attempt before s n r ↔ n = 0 ∧ r = r' := by
  constructor
  . rintro ⟨hends, hfirst⟩
    cases n with
    | zero => exact ⟨rfl, hends.unique h⟩
    | succ n => exact absurd h (hfirst 0 (by omega) r')
  . rintro ⟨rfl, rfl⟩
    exact ⟨h, by omega⟩

theorem stopsFrom_of_not_ends {before n : Nat} {s : σ} {r : Except Error Unit}
    (h : ∀ r', ¬ p.Ends (before + 1) (clock.now (attempt s).2).1 (attempt s).1 r') :
    p.StopsFrom clock attempt before s n r ↔
      ∃ m, n = m + 1 ∧ p.StopsFrom clock attempt (before + 1)
        (clock.sleep p.interval (p.ended clock attempt s)).2 m r := by
  -- The attempt after `m` others from the next one on is the one after `m + 1` others from here.
  have hshift (m : Nat) : before + 1 + m + 1 = before + (m + 1) + 1 := by omega
  constructor
  . rintro ⟨hends, hfirst⟩
    cases n with
    | zero => exact absurd hends (h r)
    | succ n =>
      refine ⟨n, rfl, ?_, ?_⟩
      . rw [hshift]
        exact hends
      . intro m hm r'
        rw [hshift]
        exact hfirst (m + 1) (by omega) r'
  . rintro ⟨n, rfl, hends, hfirst⟩
    rw [hshift] at hends
    refine ⟨hends, ?_⟩
    intro m hm r'
    cases m with
    | zero => exact h r'
    | succ m =>
      rw [← hshift]
      exact hfirst m (by omega) r'

theorem runFrom_eq_some_iff (before fuel : Nat) (s s' : σ) (r : Except Error Unit) :
    p.runFrom clock attempt before fuel s = (some r, s') ↔
      ∃ n < fuel, p.StopsFrom clock attempt before s n r ∧
        s' = p.ended clock attempt (p.begun clock attempt s n) := by
  -- On the attempts to go. Either the first one is the last, or it counts among those before.
  induction fuel generalizing before s with
  | zero =>
    constructor
    . intro h
      cases h
    . rintro ⟨n, hn, -⟩
      cases hn
  | succ fuel ih =>
    by_cases h : ∃ r', p.Ends (before + 1) (clock.now (attempt s).2).1 (attempt s).1 r'
    . obtain ⟨r₁, hends⟩ := h
      rw [runFrom_of_ends hends]
      simp only [stopsFrom_of_ends hends]
      constructor
      . intro heq
        cases heq
        exact ⟨0, by omega, ⟨rfl, rfl⟩, rfl⟩
      . rintro ⟨n, -, ⟨rfl, rfl⟩, rfl⟩
        rfl
    . have hgoes := not_exists.mp h
      rw [runFrom_of_not_ends hgoes, ih]
      simp only [stopsFrom_of_not_ends hgoes]
      constructor
      . rintro ⟨n, hn, hstops, rfl⟩
        exact ⟨n + 1, by omega, ⟨n, rfl, hstops⟩, rfl⟩
      . rintro ⟨n, hn, ⟨m, rfl, hstops⟩, rfl⟩
        exact ⟨m, by omega, hstops, rfl⟩

theorem run_eq_some_iff (s s' : σ) (r : Except Error Unit) :
    p.run clock attempt s = (some r, s') ↔
      ∃ n < maxAttempts, p.StopsAt clock attempt s n r ∧
        s' = p.ended clock attempt (p.begun clock attempt s n) := by
  have hstops (n : Nat) : p.StopsFrom clock attempt 0 s n r ↔ p.StopsAt clock attempt s n r := by
    constructor
    . rintro ⟨hends, hfirst⟩
      simp only [Nat.zero_add] at hends hfirst
      exact ⟨hends, hfirst⟩
    . rintro ⟨hends, hfirst⟩
      constructor
      case ends => simpa only [Nat.zero_add] using hends
      case first => simpa only [Nat.zero_add] using hfirst
  unfold run
  rw [runFrom_eq_some_iff]
  simp only [hstops]

end Run

end ClusterRegistration.Registration.Polling
