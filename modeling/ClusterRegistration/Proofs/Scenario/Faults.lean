import ClusterRegistration.Proofs.Registration.Attempt

namespace ClusterRegistration.Scenario

open Registration

theorem store_putStore_self (s : Scenario) (name : String) (store : Store) :
    (s.putStore name store).store name = store := by
  unfold Scenario.store putStore
  rw [OrderedMap.get?_insert_self]
  rfl

theorem store_putStore_of_ne (s : Scenario) {name other : String} (h : other ≠ name) (store : Store) :
    (s.putStore name store).store other = s.store other := by
  unfold Scenario.store putStore
  rw [OrderedMap.get?_insert_of_ne s.stores h]

@[simp]
theorem storeOf?_putStore (s : Scenario) (name : String) (store : Store) (t : Target) :
    (s.putStore name store).storeOf? t = s.storeOf? t :=
  rfl

def clustersAt (ends : Side → Target) (s : Scenario) : Clusters :=
  ⟨ends, s.storeOf?, s.store⟩

theorem storeAt?_clustersAt (ends : Side → Target) (s : Scenario) (side : Side) :
    (s.clustersAt ends).storeAt? side = s.storeOf? (ends side) :=
  rfl

@[simp]
theorem clustersAt_putStore (ends : Side → Target) (s : Scenario) (name : String) (store : Store) :
    (s.putStore name store).clustersAt ends = (s.clustersAt ends).put name store := by
  apply Clusters.ext
  . intros
    rfl
  . intros
    rfl
  . intro other
    by_cases h : other = name
    . rw [h, Clusters.store_put_self]
      apply store_putStore_self
    . rw [Clusters.store_put_of_ne _ h]
      apply store_putStore_of_ne s h

@[simp]
theorem clustersAt_mention (ends : Side → Target) (s : Scenario) (name : String) :
    (s.mention name).clustersAt ends = s.clustersAt ends := by
  unfold mention
  rw [clustersAt_putStore]
  apply Clusters.put_store

namespace Rule

variable {α : Type}

theorem effect_count (r : Rule α) (c : Call) : (r.count c).2.effect = r.effect := by
  unfold count
  split
  . rfl
  . split <;> rfl

theorem effect_first (c : Call) (rs : List (Rule α)) :
    (∀ a, (first c rs).1 = some a → ∃ r ∈ rs, r.effect = a) ∧
      ∀ r' ∈ (first c rs).2, ∃ r ∈ rs, r.effect = r'.effect := by
  induction rs with
  | nil => simp [first]
  | cons r rs ih =>
    have hcount := r.effect_count c
    unfold first
    rcases hr : r.count c with ⟨fires, r'⟩
    rw [hr] at hcount
    cases fires with
    | true => grind
    | false => grind

end Rule

structure Undisturbed (allowed : Fault → Prop) (files : FileTree) (s : Scenario) : Prop where
  hooks : s.hooks = []
  faults : ∀ r ∈ s.faults, allowed r.effect
  files : s.files = files

def hazard (allowed : Fault → Prop) (deadline : Deadline) : Hazard where
  error e := ∃ f call se, allowed f ∧ f.error? call = some se ∧ e = .store se
  cut := allowed .hang ∨ deadline ≠ Deadline.never
  late := False

section Calls

variable {allowed : Fault → Prop} {files : FileTree} {s : Scenario} {ends : Side → Target}

theorem undisturbed_putStore (h : s.Undisturbed allowed files) (name : String) (store : Store) :
    (s.putStore name store).Undisturbed allowed files :=
  ⟨h.hooks, h.faults, h.files⟩

theorem announce_eq (h : s.hooks = []) (c : Call) :
    announce c s = ((Rule.first c s.faults).1,
      { s with calls := c :: s.calls, faults := (Rule.first c s.faults).2 }) := by
  obtain ⟨stores, clusters, files, faults, hooks, calls, now⟩ := s
  simp only at h
  subst h
  rfl

theorem announce_undisturbed (h : s.Undisturbed allowed files) (ends : Side → Target) (c : Call) :
    (announce c s).2.Undisturbed allowed files ∧
      (announce c s).2.clustersAt ends = s.clustersAt ends ∧
      ∀ f, (announce c s).1 = some f → allowed f := by
  rw [announce_eq h.hooks]
  obtain ⟨hfires, hkept⟩ := Rule.effect_first c s.faults
  refine ⟨⟨h.hooks, ?_, h.files⟩, rfl, ?_⟩
  . intro r' hr'
    obtain ⟨r, hr, heffect⟩ := hkept r' hr'
    rw [← heffect]
    exact h.faults r hr
  . intro f hf
    obtain ⟨r, hr, rfl⟩ := hfires f hf
    exact h.faults r hr

theorem call_of_none {α : Type} {c : Call} {go : Run (Except Store.Error α)}
    (h : (announce c s).1 = none) :
    call c go s = (some (go (announce c s).2).1, (go (announce c s).2).2) := by
  unfold call
  rw [stateM_bind, h]
  rfl

theorem call_of_some {α : Type} {c : Call} {go : Run (Except Store.Error α)} {f : Fault}
    (h : (announce c s).1 = some f) :
    call c go s = ((f.error? c).map .error, (announce c s).2) := by
  unfold call
  rw [stateM_bind, h]
  rfl

theorem carried_of_fault (deadline : Deadline) (a : Action) (w : Clusters) (c : Call) {f : Fault}
    (hf : allowed f) :
    Carried (hazard allowed deadline) a w
      (((f.error? c).map (fun e => a.failure (.store e))) : Option a.Outcome) w := by
  refine .inr ⟨?_, .inl rfl⟩
  cases he : f.error? c with
  | some e => exact .inr ⟨.store e, ⟨f, c, e, hf, he, rfl⟩, rfl⟩
  | none =>
    cases f with
    | hang => exact .inl ⟨rfl, .inl hf⟩
    | notFound => cases he
    | alreadyExists => cases he
    | lockPoisoned => cases he
    | io reason => cases he

theorem connectStore_of_none (ends : Side → Target) (side : Side) {t : Target}
    (h : (announce ⟨"-", "connect", "-", t.text⟩ s).1 = none) :
    connectStore t s =
      (some (((announce ⟨"-", "connect", "-", t.text⟩ s).2.clustersAt ends).answer
        (.connect side t)).1, (announce ⟨"-", "connect", "-", t.text⟩ s).2) := by
  unfold connectStore
  rw [stateM_bind, call_of_none h]
  generalize (announce ⟨"-", "connect", "-", t.text⟩ s).2 = s'
  simp only [Clusters.answer, clustersAt]
  cases ht : s'.storeOf? t with
  | none =>
    simp only [stateM_bind, stateM_get, ht]
    rfl
  | some name =>
    simp only [stateM_bind, stateM_get, ht]
    rfl

theorem connectStore_carried (h : s.Undisturbed allowed files) (deadline : Deadline) (side : Side)
    (t : Target) :
    (connectStore t s).2.Undisturbed allowed files ∧
      Carried (hazard allowed deadline) (.connect side t) (s.clustersAt ends) (connectStore t s).1
        ((connectStore t s).2.clustersAt ends) := by
  let c : Call := ⟨"-", "connect", "-", t.text⟩
  obtain ⟨hinv, hview, hfault⟩ := announce_undisturbed h ends c
  cases hf : (announce c s).1 with
  | none =>
    rw [connectStore_of_none ends side hf]
    refine ⟨hinv, ?_⟩
    show Carried _ _ _ _ ((announce c s).2.clustersAt ends)
    rw [hview]
    refine .inl ⟨rfl, ?_⟩
    rw [Clusters.answer_connect]
  | some f =>
    unfold connectStore
    rw [stateM_bind, call_of_some hf]
    refine ⟨hinv, ?_⟩
    show Carried _ _ _ _ ((announce c s).2.clustersAt ends)
    rw [hview, stateM_pure, Option.map_map]
    exact carried_of_fault deadline (.connect side t) (s.clustersAt ends) c (hfault f hf)

theorem askStore_eq (name : String) (r : Request) (s : Scenario) :
    askStore name r s =
      (((s.store name).answer r).1, s.putStore name ((s.store name).answer r).2) :=
  rfl

theorem ask_eq (name : String) (r : Request) (s : Scenario) :
    ask name r s = call (callOf name r) (askStore name r) (s.mention name) :=
  rfl

theorem ask_cases (h : s.Undisturbed allowed files) (name : String) (r : Request) :
    (ask name r s).2.Undisturbed allowed files ∧ (ask name r s).2.clusters = s.clusters ∧
      (((ask name r s).1 = some ((s.store name).answer r).1 ∧
          ∀ other, (ask name r s).2.store other =
            if other = name then ((s.store name).answer r).2 else s.store other) ∨
        ∃ f, allowed f ∧ (ask name r s).1 = (f.error? (callOf name r)).map .error ∧
          ∀ other, (ask name r s).2.store other = s.store other) := by
  have hmention : (s.mention name).Undisturbed allowed files := undisturbed_putStore h name _
  have hstore (other : String) : (s.mention name).store other = s.store other := by
    by_cases hother : other = name
    . rw [hother]
      apply store_putStore_self
    . apply store_putStore_of_ne s hother
  obtain ⟨hinv, hview, hfault⟩ := announce_undisturbed hmention (fun _ => default) (callOf name r)
  have hannounced (other : String) :
      (announce (callOf name r) (s.mention name)).2.store other = s.store other := by
    rw [← hstore other]
    exact congrArg (fun w => w.store other) hview
  have hclusters : (announce (callOf name r) (s.mention name)).2.clusters = s.clusters := by
    rw [announce_eq hmention.hooks]
    rfl
  rw [ask_eq]
  cases hf : (announce (callOf name r) (s.mention name)).1 with
  | none =>
    rw [call_of_none hf, askStore_eq, hannounced]
    refine ⟨undisturbed_putStore hinv _ _, hclusters, .inl ⟨rfl, ?_⟩⟩
    intro other
    split
    . next hother =>
      rw [hother]
      apply store_putStore_self
    . next hother =>
      rw [← hannounced other]
      apply store_putStore_of_ne _ hother
  | some f =>
    rw [call_of_some hf]
    exact ⟨hinv, hclusters, .inr ⟨f, hfault f hf, rfl, hannounced⟩⟩

theorem carried_of_error? (deadline : Deadline) (side : Side) (operation : String) (name : String)
    (r : Request) (w : Clusters) {f : Fault} (h : allowed f) :
    Carried (hazard allowed deadline) (.ask side operation r) w
      (((f.error? (callOf name r)).map .error).map
        (fun a : Except Store.Error r.Answer => a.mapError ClusterError.store)) w := by
  have hcarried := carried_of_fault deadline (.ask side operation r) w (callOf name r) h
  cases he : f.error? (callOf name r) with
  | none =>
    rw [he] at hcarried
    exact hcarried
  | some e =>
    rw [he] at hcarried
    exact hcarried

theorem ask_carried (h : s.Undisturbed allowed files) (deadline : Deadline) {side : Side} {name : String}
    (hname : s.storeOf? (ends side) = some name) (operation : String) (r : Request) :
    (ask name r s).2.Undisturbed allowed files ∧
      Carried (hazard allowed deadline) (.ask side operation r) (s.clustersAt ends)
        ((ask name r s).1.map (·.mapError ClusterError.store))
        ((ask name r s).2.clustersAt ends) := by
  obtain ⟨hinv, hclusters, hends⟩ := ask_cases h name r
  have hstoreOf (t : Target) : (ask name r s).2.storeOf? t = s.storeOf? t := by
    unfold storeOf?
    rw [hclusters]
  refine ⟨hinv, ?_⟩
  rcases hends with ⟨ho, hstore⟩ | ⟨f, hf, ho, hstore⟩
  . rw [ho]
    refine .inl ?_
    rw [Clusters.answer_ask (w := s.clustersAt ends) hname operation r]
    exact ⟨rfl, Clusters.ext (fun _ => rfl) hstoreOf hstore⟩
  . have hsame : (ask name r s).2.clustersAt ends = s.clustersAt ends :=
      Clusters.ext (fun _ => rfl) hstoreOf hstore
    rw [ho, hsame]
    exact carried_of_error? deadline side operation name r (s.clustersAt ends) hf

theorem perform_ask_of_some {side : Side} {name : String} (hname : s.storeOf? (ends side) = some name)
    (operation : String) (r : Request) :
    perform ends (.ask side operation r) s =
      ((ask name r s).1.map (·.mapError ClusterError.store), (ask name r s).2) := by
  simp only [perform]
  rw [stateM_bind, stateM_get, hname]
  rfl

theorem perform_ask_of_none {side : Side} (hname : s.storeOf? (ends side) = none)
    (operation : String) (r : Request) :
    perform ends (.ask side operation r) s = (some (.error (.io unreachable)), s) := by
  simp only [perform]
  rw [stateM_bind, stateM_get, hname]
  rfl

theorem perform_carried (h : s.Undisturbed allowed files) (deadline : Deadline) (a : Action) :
    (perform ends a s).2.Undisturbed allowed files ∧
      Carried (hazard allowed deadline) a (s.clustersAt ends) (perform ends a s).1
        ((perform ends a s).2.clustersAt ends) := by
  cases a with
  | connect side t => exact connectStore_carried h deadline side t
  | ask side operation r =>
    cases hname : s.storeOf? (ends side) with
    | none =>
      have hat : (s.clustersAt ends).storeAt? side = none := hname
      rw [perform_ask_of_none hname]
      refine ⟨h, .inl ⟨?_, ?_⟩⟩
      . simp only [Clusters.answer, hat]
      . simp only [Clusters.answer, hat]
    | some name =>
      rw [perform_ask_of_some hname]
      exact ask_carried h deadline hname operation r

theorem carrier (allowed : Fault → Prop) (files : FileTree) (ends : Side → Target) (deadline : Deadline) :
    Carrier (hazard allowed deadline) (clustersAt ends) (Undisturbed allowed files) clock deadline
      (perform ends) where
  now s := rfl
  expired s hs hover := by
    refine .inr ?_
    rintro rfl
    cases hover
  sleep t s hs := ⟨⟨hs.hooks, hs.faults, hs.files⟩, rfl⟩
  perform a s hs := perform_carried hs deadline a

end Calls

def Fault.IsHarmless (f : Fault) : Prop :=
  f ≠ .notFound ∧ f ≠ .alreadyExists

theorem hazard_harmless {allowed : Fault → Prop} (h : ∀ f, allowed f → f.IsHarmless)
    (deadline : Deadline) : (hazard allowed deadline).Harmless := by
  rintro e ⟨f, c, se, hf, hse, rfl⟩
  obtain ⟨hnotFound, halreadyExists⟩ := h f hf
  cases f with
  | notFound => exact absurd rfl hnotFound
  | alreadyExists => exact absurd rfl halreadyExists
  | lockPoisoned =>
    cases hse
    exact ⟨rfl, rfl⟩
  | io reason =>
    cases hse
    exact ⟨rfl, rfl⟩
  | hang => cases hse

theorem register_stores (s : Scenario) (c : Config) (deadline : Deadline) :
    register .stores c deadline s =
      (c.attempt (s.files.read c.source.kubeconfig)).run clock deadline (perform c.target) s :=
  rfl

theorem register_ends {allowed : Fault → Prop} (hallowed : ∀ f, allowed f → f.IsHarmless)
    {s : Scenario} {files : FileTree} (h : s.Undisturbed allowed files) (c : Config)
    (deadline : Deadline) :
    (register .stores c deadline s).2.Undisturbed allowed files ∧
      Config.Ends (hazard allowed deadline)
        (c.prospect (files.read c.source.kubeconfig) (s.clustersAt c.target))
        (s.clustersAt c.target) (register .stores c deadline s).1
        ((register .stores c deadline s).2.clustersAt c.target) := by
  rw [register_stores, h.files]
  apply (carrier allowed files c.target deadline).run_always h
  exact c.attempt_ends (hazard_harmless hallowed deadline) _ rfl

section Quiet

abbrev Quiet (files : FileTree) (s : Scenario) : Prop :=
  s.Undisturbed (fun _ => False) files

theorem not_error_of_quiet (e : ClusterError) :
    ¬ (hazard (fun _ => False) Deadline.never).error e := by
  rintro ⟨f, c, se, hf, -⟩
  exact hf

theorem not_cut_of_quiet : ¬ (hazard (fun _ => False) Deadline.never).cut := by
  rintro (h | h)
  . exact h
  . exact h rfl

theorem perform_of_quiet {files : FileTree} {s : Scenario} {ends : Side → Target}
    (h : s.Quiet files) (a : Action) :
    (perform ends a s).2.Quiet files ∧
      (perform ends a s).1 = some ((s.clustersAt ends).answer a).1 ∧
      (perform ends a s).2.clustersAt ends = ((s.clustersAt ends).answer a).2 := by
  obtain ⟨hinv, hcarried⟩ := @perform_carried _ _ _ ends h Deadline.never a
  refine ⟨hinv, ?_⟩
  rcases hcarried with hanswer | ⟨⟨-, hcut⟩ | ⟨e, he, -⟩, -⟩
  . exact hanswer
  . exact absurd hcut not_cut_of_quiet
  . exact absurd he (not_error_of_quiet e)

theorem register_of_quiet {files : FileTree} {s : Scenario} (h : s.Quiet files) (c : Config) :
    (register .stores c Deadline.never s).2.Quiet files ∧
      (register .stores c Deadline.never s).1 =
        (c.prospect (files.read c.source.kubeconfig) (s.clustersAt c.target)).result ∧
      (register .stores c Deadline.never s).2.clustersAt c.target =
        (s.clustersAt c.target).applyAll
          (c.prospect (files.read c.source.kubeconfig) (s.clustersAt c.target)).writes := by
  obtain ⟨hinv, hends⟩ := register_ends (fun _ => False.elim) h c Deadline.never
  refine ⟨hinv, ?_⟩
  rcases hends with (hresult | ⟨e, xs, -, hfailure, -⟩) | ⟨target, e, -, he, -⟩
  . exact hresult
  . rcases hfailure with ⟨operation, source, -, he⟩ | ⟨operation, -, hcut⟩
    . exact absurd he (not_error_of_quiet source)
    . exact absurd hcut not_cut_of_quiet
  . exact absurd he (not_error_of_quiet e)

end Quiet

end ClusterRegistration.Scenario
