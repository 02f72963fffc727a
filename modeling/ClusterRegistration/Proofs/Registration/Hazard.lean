import ClusterRegistration.Scenario.Attempts

/-!
This module contains what can become of a script when calls get lost on the way: the states and
results that it may end with, whatever happens to its calls.
-/

namespace ClusterRegistration.Registration

structure Clusters where
  target : Side → Target
  storeOf? : Target → Option String
  store : String → Store

namespace Clusters

@[ext]
theorem ext {w w' : Clusters} (htarget : ∀ side, w.target side = w'.target side)
    (hstoreOf : ∀ t, w.storeOf? t = w'.storeOf? t) (hstore : ∀ name, w.store name = w'.store name) :
    w = w' := by
  obtain ⟨target, storeOf, store⟩ := w
  obtain ⟨target', storeOf', store'⟩ := w'
  have : target = target' := funext htarget
  have : storeOf = storeOf' := funext hstoreOf
  have : store = store' := funext hstore
  subst_vars
  rfl

def storeAt? (w : Clusters) (side : Side) : Option String :=
  w.storeOf? (w.target side)

def put (w : Clusters) (name : String) (s : Store) : Clusters :=
  { w with store := fun other => if other = name then s else w.store other }

@[simp]
theorem storeOf?_put (w : Clusters) (name : String) (s : Store) :
    (w.put name s).storeOf? = w.storeOf? :=
  rfl

@[simp]
theorem store_put_self (w : Clusters) (name : String) (s : Store) :
    (w.put name s).store name = s := by
  simp [put]

theorem store_put_of_ne (w : Clusters) {name other : String} (h : other ≠ name) (s : Store) :
    (w.put name s).store other = w.store other := by
  simp [put, h]

@[simp]
theorem put_store (w : Clusters) (name : String) : w.put name (w.store name) = w := by
  apply ext
  . intros
    rfl
  . intros
    rfl
  . intro other
    by_cases h : other = name
    . rw [h, store_put_self]
    . rw [store_put_of_ne w h]

def answer (w : Clusters) : (a : Action) → a.Outcome × Clusters
  | .connect _ t =>
    match w.storeOf? t with
    | some _ => (.ok (), w)
    | none => (.error (.store (.io "unknown cluster")), w)
  | .ask side _ r =>
    match w.storeAt? side with
    | some name =>
      let (answer, s) := (w.store name).answer r
      (answer.mapError ClusterError.store, w.put name s)
    | none => (.error (.io unreachable), w)

theorem answer_connect (w : Clusters) (side : Side) (t : Target) :
    (w.answer (.connect side t)).2 = w := by
  simp only [answer]
  split <;> rfl

theorem answer_ask {w : Clusters} {side : Side} {name : String} (h : w.storeAt? side = some name)
    (operation : String) (r : Request) :
    w.answer (.ask side operation r) =
      (((w.store name).answer r).1.mapError ClusterError.store,
        w.put name ((w.store name).answer r).2) := by
  simp only [answer, h]
  rfl

end Clusters

/--
What may happen to a call on its way.
-/
structure Hazard where
  /-- The errors with which calls may fail. -/
  error : ClusterError → Prop
  cut : Prop
  /-- A call that fails or is given up may have been carried out. -/
  late : Prop

def Hazard.none : Hazard :=
  ⟨fun _ => False, False, False⟩

def Action.failure (e : ClusterError) : (a : Action) → a.Outcome
  | .connect _ _ => .error e
  | .ask _ _ _ => .error e

namespace Script

variable {α β : Type} {hz : Hazard} {post post' : Except Error α → Clusters → Prop}

/--
Whatever happens to the calls of a script, its result and the clusters in the end are as `post` says.
-/
def Always (hz : Hazard) (post : Except Error α → Clusters → Prop) : Script α → Clusters → Prop
  | .done result, w => post result w
  | .act a next, w =>
    (next (w.answer a).1).Always hz post (w.answer a).2 ∧
      ∀ w', w' = w ∨ hz.late ∧ w' = (w.answer a).2 →
        (hz.cut → post (.error (.deadlineExceeded a.operation)) w') ∧
          ∀ e, hz.error e → (next (a.failure e)).Always hz post w'

@[simp]
theorem always_done (result : Except Error α) (w : Clusters) :
    (Script.done result).Always hz post w ↔ post result w :=
  Iff.rfl

@[simp]
theorem always_fail (e : Error) (w : Clusters) :
    (Script.fail e : Script α).Always hz post w ↔ post (.error e) w :=
  Iff.rfl

theorem always_mono {s : Script α} {w : Clusters} (h : s.Always hz post w)
    (hpost : ∀ r w', post r w' → post' r w') : s.Always hz post' w := by
  induction s generalizing w with
  | done result =>
    apply hpost
    exact h
  | act a next ih =>
    obtain ⟨hanswer, hmissed⟩ := h
    refine ⟨ih _ hanswer, ?_⟩
    intro w' hw'
    obtain ⟨hcut, herror⟩ := hmissed w' hw'
    refine ⟨fun h => hpost _ _ (hcut h), ?_⟩
    intro e he
    exact ih _ (herror e he)

def andThen (hz : Hazard) (post : Except Error β → Clusters → Prop) (f : α → Script β) :
    Except Error α → Clusters → Prop
  | .ok a, w => (f a).Always hz post w
  | .error e, w => post (.error e) w

theorem always_bind {post : Except Error β → Clusters → Prop} (s : Script α) (f : α → Script β)
    (w : Clusters) : (s.bind f).Always hz post w ↔ s.Always hz (andThen hz post f) w := by
  induction s generalizing w with
  | done result => cases result <;> exact Iff.rfl
  | act a next ih =>
    simp only [act_bind, Always, ih]
    exact Iff.rfl

end Script

section Carrying

variable {σ α : Type}

theorem stateM_bind {β : Type} (x : StateM σ α) (f : α → StateM σ β) (s : σ) :
    (x >>= f) s = f (x s).1 (x s).2 :=
  rfl

theorem stateM_pure (a : α) (s : σ) : (pure a : StateM σ α) s = (a, s) :=
  rfl

theorem stateM_get (s : σ) : (get : StateM σ σ) s = (s, s) :=
  rfl

def Carried (hz : Hazard) (a : Action) (w : Clusters) (o : Option a.Outcome) (w' : Clusters) : Prop :=
  (o = some (w.answer a).1 ∧ w' = (w.answer a).2) ∨
    (o = none ∧ hz.cut ∨ ∃ e, hz.error e ∧ o = some (a.failure e)) ∧
      (w' = w ∨ hz.late ∧ w' = (w.answer a).2)

/--
A way of performing actions that depends on a state, in which the clusters are seen through `view`.
States that satisfy `inv` are the ones of which this is known.
-/
structure Carrier (hz : Hazard) (view : σ → Clusters) (inv : σ → Prop) (clock : Clock (StateM σ))
    (deadline : Deadline) (perform : (a : Action) → StateM σ (Option a.Outcome)) : Prop where
  now : ∀ s, (clock.now s).2 = s
  expired : ∀ s, inv s → deadline.isOver (clock.now s).1 = true → hz.cut
  sleep : ∀ t s, inv s → inv (clock.sleep t s).2 ∧ view (clock.sleep t s).2 = view s
  perform : ∀ a s, inv s →
    inv (perform a s).2 ∧ Carried hz a (view s) (perform a s).1 (view (perform a s).2)

namespace Carrier

variable {hz : Hazard} {view : σ → Clusters} {inv : σ → Prop} {clock : Clock (StateM σ)}
  {deadline : Deadline} {perform : (a : Action) → StateM σ (Option a.Outcome)}

theorem guard_of_over (hc : Carrier hz view inv clock deadline perform) (a : Action) {s : σ}
    (h : deadline.isOver (clock.now s).1 = true) :
    deadline.guard clock a.operation (perform a) s =
      (.error (.deadlineExceeded a.operation), s) := by
  simp only [Deadline.guard, stateM_bind, hc.now s, h]
  rfl

theorem guard_of_some (hc : Carrier hz view inv clock deadline perform) (a : Action) {s : σ}
    {o : a.Outcome} (h : deadline.isOver (clock.now s).1 = false)
    (ho : (perform a s).1 = some o) :
    deadline.guard clock a.operation (perform a) s = (.ok o, (perform a s).2) := by
  simp only [Deadline.guard, stateM_bind, hc.now s, h, Bool.false_eq_true, ↓reduceIte, ho]
  rfl

theorem guard_of_none (hc : Carrier hz view inv clock deadline perform) (a : Action) {s : σ}
    (h : deadline.isOver (clock.now s).1 = false) (ho : (perform a s).1 = none) :
    ∃ t, deadline.guard clock a.operation (perform a) s =
      (.error (.deadlineExceeded a.operation), (clock.sleep t (perform a s).2).2) := by
  refine ⟨deadline.moment?.getD 0 - (clock.now (perform a s).2).1, ?_⟩
  simp only [Deadline.guard, stateM_bind, hc.now, h, Bool.false_eq_true, ↓reduceIte, ho]
  rfl

theorem run_act_of_ok {a : Action} {next : a.Outcome → Script α} {o : a.Outcome} {s s' : σ}
    (h : deadline.guard clock a.operation (perform a) s = (.ok o, s')) :
    (Script.act a next).run clock deadline perform s = (next o).run clock deadline perform s' := by
  rw [Script.run, stateM_bind, h]

theorem run_act_of_error {a : Action} {next : a.Outcome → Script α} {e : Error} {s s' : σ}
    (h : deadline.guard clock a.operation (perform a) s = (.error e, s')) :
    (Script.act a next).run clock deadline perform s = (.error e, s') := by
  rw [Script.run, stateM_bind, h]
  rfl

theorem run_always (hc : Carrier hz view inv clock deadline perform)
    {post : Except Error α → Clusters → Prop} {script : Script α} {s : σ} (hs : inv s)
    (h : script.Always hz post (view s)) :
    inv (script.run clock deadline perform s).2 ∧
      post (script.run clock deadline perform s).1 (view (script.run clock deadline perform s).2) := by
  -- On the script. `inv` keeps the clusters in view, and `Always` follows what becomes of them.
  induction script generalizing s with
  | done result => exact ⟨hs, h⟩
  | act a next ih =>
    obtain ⟨hanswer, hmissed⟩ := h
    obtain ⟨hinv, hcarried⟩ := hc.perform a s hs
    -- A call is given up before it is made, or gets through, or is given up on the way, or fails.
    cases hover : deadline.isOver (clock.now s).1 with
    | true =>
      rw [run_act_of_error (hc.guard_of_over a hover)]
      exact ⟨hs, (hmissed _ (.inl rfl)).1 (hc.expired s hs hover)⟩
    | false =>
      rcases hcarried with ⟨ho, hview⟩ | ⟨⟨ho, hcut⟩ | ⟨e, he, ho⟩, hview⟩
      . rw [run_act_of_ok (hc.guard_of_some a hover ho)]
        apply ih _ hinv
        rw [hview]
        exact hanswer
      . obtain ⟨t, hguard⟩ := hc.guard_of_none a hover ho
        obtain ⟨hinv', hview'⟩ := hc.sleep t _ hinv
        rw [run_act_of_error hguard]
        refine ⟨hinv', ?_⟩
        show post (.error (.deadlineExceeded a.operation)) (view _)
        rw [hview']
        exact (hmissed _ hview).1 hcut
      . rw [run_act_of_ok (hc.guard_of_some a hover ho)]
        apply ih _ hinv
        exact (hmissed _ hview).2 e he

end Carrier

section Keeping

variable (inv : σ → Prop) {clock : Clock (StateM σ)} {deadline : Deadline}
  {perform : (a : Action) → StateM σ (Option a.Outcome)} (hnow : ∀ s, inv s → inv (clock.now s).2)
  (hsleep : ∀ t s, inv s → inv (clock.sleep t s).2) (hperform : ∀ a s, inv s → inv (perform a s).2)

include hnow hsleep hperform

theorem guard_keeps (a : Action) {s : σ} (h : inv s) :
    inv (deadline.guard clock a.operation (perform a) s).2 := by
  rw [Deadline.guard, stateM_bind]
  split
  . exact hnow s h
  . rw [stateM_bind]
    have hperformed := hperform a _ (hnow s h)
    cases (perform a (clock.now s).2).1 with
    | some o => exact hperformed
    | none => exact hsleep _ _ (hnow _ hperformed)

theorem run_keeps (script : Script α) {s : σ} (h : inv s) :
    inv (script.run clock deadline perform s).2 := by
  induction script generalizing s with
  | done result => exact h
  | act a next ih =>
    have hguard : inv (deadline.guard clock a.operation (perform a) s).2 :=
      guard_keeps inv hnow hsleep hperform a h
    rw [Script.run, stateM_bind]
    cases (deadline.guard clock a.operation (perform a) s).1 with
    | ok o => exact ih o hguard
    | error e => exact hguard

end Keeping

end Carrying

end ClusterRegistration.Registration
