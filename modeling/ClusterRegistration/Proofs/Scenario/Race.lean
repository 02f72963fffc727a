import ClusterRegistration.Proofs.Registration.Answer
import ClusterRegistration.Proofs.Registration.Descriptor
import ClusterRegistration.Proofs.Registration.Publication
import ClusterRegistration.Proofs.Scenario.Concurrency
import ClusterRegistration.Proofs.Scenario.Stability

/-!
This module contains attempts that race for one place in the destination: it is taken once, by one of
them.
-/

namespace ClusterRegistration.Scenario

open Registration

def Edit.Spares (destination : String) : Edit → Prop
  | .ask store _ => store ≠ destination
  | .follow store _ => store ≠ destination
  | .replace store _ => store ≠ destination
  | .issue store _ _ => store ≠ destination
  | .writeFile _ _ => True
  | .removeFile _ => True

def Move.Fair (s : Scenario) (p : Publication) (destination : String) : Move → Prop
  | .begin c _ => c.publication = p ∧ s.storeOf? c.destination = some destination ∧
    s.storeOf? c.source ≠ some destination
  | .act _ => True
  | .edit e => e.Spares destination
  | .wait _ => True

section Spared

variable {destination : String} {s : Scenario}

structure Spared (destination : String) (s s' : Scenario) : Prop where
  store : s'.store destination = s.store destination
  known : s'.storeOf? = s.storeOf?
  hooks : s'.hooks = s.hooks
  faults : s'.faults = s.faults

theorem spared_refl (destination : String) (s : Scenario) : Spared destination s s :=
  ⟨rfl, rfl, rfl, rfl⟩

theorem spared_trans {s' s'' : Scenario} (h : Spared destination s s') (h' : Spared destination s' s'') :
    Spared destination s s'' :=
  ⟨h'.store.trans h.store, h'.known.trans h.known, h'.hooks.trans h.hooks,
    h'.faults.trans h.faults⟩

theorem spared_putStore {name : String} (h : name ≠ destination) (store : Store) :
    Spared destination s (s.putStore name store) :=
  ⟨store_putStore_of_ne s h.symm store, rfl, rfl, rfl⟩

theorem spared_change {α : Type} {name : String} (h : name ≠ destination)
    (f : Store → Except Store.Error (α × Store)) : Spared destination s (change name f s).2 := by
  simp only [change, stateM_bind, stateM_get]
  cases f (s.store name) with
  | ok changed => exact spared_putStore h _
  | error e => exact spared_putStore h _

theorem spared_apply {e : Edit} (h : e.Spares destination) : Spared destination s (e.apply s).2 := by
  cases e with
  | ask store r => exact spared_putStore h _
  | follow store script =>
    apply run_keeps (Spared destination s)
    . intro s' hs'
      exact hs'
    . intro time s' hs'
      exact ⟨hs'.store, hs'.known, hs'.hooks, hs'.faults⟩
    . intro a s' hs'
      cases a with
      | connect side t => exact hs'
      | ask side operation r =>
        have hasked : (performOn (fun r => some <$> askStore store r) (.ask side operation r) s').2 =
            s'.putStore store ((s'.store store).answer r).2 := by
          have hanswer : (some <$> askStore store r : Run (Option (Except Store.Error r.Answer))) s' =
              (some ((s'.store store).answer r).1,
                s'.putStore store ((s'.store store).answer r).2) := rfl
          simp only [performOn]
          rw [stateM_bind, hanswer]
          cases ((s'.store store).answer r).1 <;> rfl
        rw [hasked]
        exact spared_trans hs' (spared_putStore h _)
    . exact spared_refl destination s
  | replace store o => exact spared_change h (fun s : Store => s.replace o)
  | issue store item data => exact spared_change h (fun s : Store => s.issue item data)
  | writeFile path content => exact ⟨rfl, rfl, rfl, rfl⟩
  | removeFile path => exact ⟨rfl, rfl, rfl, rfl⟩

end Spared

section Step

variable {s : Scenario} {u : Underway} {a : Action} {next : a.Outcome → Script Unit}
  {past : List Event} {destination : String}

theorem step_cases (h : s.Undisturbed Fault.IsHarmless s.files)
    (hdestination : s.storeOf? u.config.destination = some destination)
    (hsource : s.storeOf? u.config.source ≠ some destination) (hrest : u.rest = .act a next)
    (ha : a.OnlyCreates) :
    (u.step s).2.Undisturbed Fault.IsHarmless (u.step s).2.files ∧
      (u.step s).2.storeOf? = s.storeOf? ∧
      ((∃ o, (u.step s).1 = ({ u with rest := next o }, some ⟨a, o⟩) ∧
          Impact [⟨a, o⟩] (s.store destination) ((u.step s).2.store destination)) ∨
        (u.step s).1 = ({ u with rest := .done (.error (.deadlineExceeded a.operation)) }, none) ∧
          (u.step s).2.store destination = s.store destination) := by
  have hc := carrier Fault.IsHarmless s.files u.config.target u.deadline
  obtain ⟨hinv, hcarried⟩ := hc.perform a s h
  cases hover : u.deadline.isOver (clock.now s).1 with
  | true =>
    rw [step_of_error hrest (hc.guard_of_over a hover)]
    exact ⟨h, rfl, .inr ⟨rfl, rfl⟩⟩
  | false =>
    have hfiles : (perform u.config.target a s).2.Undisturbed Fault.IsHarmless
        (perform u.config.target a s).2.files := by
      rw [hinv.files]
      exact hinv
    have hview {w : Clusters} (h : (perform u.config.target a s).2.clustersAt u.config.target = w)
        (hw : w.storeOf? = s.storeOf?) :
        (perform u.config.target a s).2.storeOf? = s.storeOf? ∧
          (perform u.config.target a s).2.store destination = w.store destination := by
      rw [← h] at hw ⊢
      exact ⟨hw, rfl⟩
    rcases hcarried with ⟨ho, hanswer⟩ | ⟨hmissed, hkept | ⟨hlate, -⟩⟩
    . obtain ⟨hknown, hstore⟩ := hview hanswer (Clusters.storeOf?_answer _ a)
      rw [step_of_ok hrest (hc.guard_of_some a hover ho)]
      refine ⟨hfiles, hknown, .inl ⟨_, rfl, ?_⟩⟩
      show Impact _ _ ((perform u.config.target a s).2.store destination)
      rw [hstore]
      exact Clusters.impact_answer (w := s.clustersAt u.config.target) hdestination hsource ha
    . obtain ⟨hknown, hstore⟩ := hview hkept rfl
      rcases hmissed with ⟨ho, -⟩ | ⟨e, he, ho⟩
      . obtain ⟨time, hguard⟩ := hc.guard_of_none a hover ho
        rw [step_of_error hrest hguard]
        exact ⟨⟨hfiles.hooks, hfiles.faults, rfl⟩, hknown, .inr ⟨rfl, hstore⟩⟩
      -- An attempt that learns of a failure may go on, but it has learnt nothing of an object.
      . rw [step_of_ok hrest (hc.guard_of_some a hover ho)]
        refine ⟨hfiles, hknown, .inl ⟨_, rfl, ?_⟩⟩
        show Impact _ _ ((perform u.config.target a s).2.store destination)
        rw [hstore]
        have hharmless := hazard_harmless (fun _ h => h) u.deadline e he
        exact Impact.of_failure hharmless.2 ha _
    . cases hlate

end Step

/--
Attempts that race for a place since `s`. They do what they may do, and it is only they that concern the
destination.
-/
structure Sound (s : Scenario) (p : Publication) (destination : String) (t : Concurrent) : Prop where
  undisturbed : t.scenario.Undisturbed Fault.IsHarmless t.scenario.files
  known : t.scenario.storeOf? = s.storeOf?
  fair : ∀ (i : Nat) (u : Underway), t.attempts[i]? = some u → u.config.publication = p ∧
    s.storeOf? u.config.destination = some destination ∧ s.storeOf? u.config.source ≠ some destination
  faithful : ∀ (i : Nat) (u : Underway), t.attempts[i]? = some u →
    u.rest.Throughout (u.config.Permits u.content) (u.config.Concludes u.content) (t.pastOf i)
  permitted : ∀ e ∈ t.past, ∃ u, t.attempts[e.1]? = some u ∧
    u.config.Permits u.content (t.pastOf e.1) e.2.action
  impact : Impact (t.past.map Prod.snd) (s.store destination) (t.scenario.store destination)

def Concurrent.creations (t : Concurrent) (key : Store.Key) : Nat :=
  t.past.countP (fun e => e.2.creates key)

structure Decided (p : Publication) (destination : String) (t : Concurrent) : Prop where
  referred : (t.scenario.store destination).objects.contains p.clientConfigKey = true →
    (t.scenario.store destination).objects.contains p.secretKey = true
  translated : (t.scenario.store destination).objects.contains p.secretKey = true →
    ∃ (i : Nat) (u : Underway) (host : String) (credential : Credential) (token : String) (ca : Bytes)
      (secret : Object .secret), t.attempts[i]? = some u ∧
        resolveHost u.config.source u.content = .ok host ∧
        u.config.identity.Listed (t.pastOf i) credential ∧
        credential.decodeToken = .ok token ∧ credential.decodeCa = .ok ca ∧
        (t.scenario.store destination).get .secret p.item = .ok secret ∧
        (SecretHeader.data secret.header).get? kubeconfigKey =
          some (base64Text (Text.Utf8.encode (descriptor token ca host p.name).toYaml))
  once : t.creations p.secretKey ≤ 1 ∧ t.creations p.clientConfigKey ≤ 1
  registered : ∀ u ∈ t.attempts, u.rest = .done (.ok ()) →
    (t.scenario.store destination).objects.contains p.secretKey = true ∧
      (t.scenario.store destination).objects.contains p.clientConfigKey = true

section Moves

variable {s : Scenario} {p : Publication} {destination : String} {t : Concurrent}

theorem sound_of_spared (h : Sound s p destination t) {s' : Scenario}
    (hspared : Spared destination t.scenario s') : Sound s p destination { t with scenario := s' } where
  undisturbed := by
    refine ⟨?_, ?_, rfl⟩
    . rw [hspared.hooks]
      exact h.undisturbed.hooks
    . rw [hspared.faults]
      exact h.undisturbed.faults
  known := hspared.known.trans h.known
  fair := h.fair
  faithful := h.faithful
  permitted := h.permitted
  impact := by
    rw [hspared.store]
    exact h.impact

theorem pastOf_length (h : Sound s p destination t) : t.pastOf t.attempts.length = [] := by
  unfold Concurrent.pastOf
  rw [List.filterMap_eq_nil_iff]
  intro e he
  obtain ⟨u, hu, -⟩ := h.permitted e he
  have hlt := (List.getElem?_eq_some_iff.mp hu).1
  exact if_neg (by omega)

theorem sound_begin (h : Sound s p destination t) {c : Config} (deadline : Deadline)
    (hfair : (Move.begin c deadline).Fair s p destination) :
    Sound s p destination (t.move (.begin c deadline)) := by
  constructor
  case undisturbed => exact h.undisturbed
  case known => exact h.known
  case fair =>
    intro i u hu
    rcases of_mem_append hu with hu | ⟨-, rfl⟩
    . exact h.fair i u hu
    . exact hfair
  case faithful =>
    intro i u hu
    rcases of_mem_append hu with hu | ⟨rfl, rfl⟩
    . exact h.faithful i u hu
    . show Script.Throughout _ _ _ (t.pastOf t.attempts.length)
      rw [pastOf_length h]
      exact c.attempt_throughout _
  case permitted =>
    intro e he
    obtain ⟨u, hu, hpermits⟩ := h.permitted e he
    refine ⟨u, ?_, hpermits⟩
    exact (List.getElem?_append_left (List.getElem?_eq_some_iff.mp hu).1).trans hu
  case impact => exact h.impact

theorem sound_of_step (h : Sound s p destination t) {i : Nat} {u : Underway}
    (hu : t.attempts[i]? = some u) {rest : Script Unit} (es : List Event) {s' : Scenario}
    (hundisturbed : s'.Undisturbed Fault.IsHarmless s'.files)
    (hknown : s'.storeOf? = t.scenario.storeOf?)
    (hrest : rest.Throughout (u.config.Permits u.content) (u.config.Concludes u.content)
      (t.pastOf i ++ es))
    (hpermits : ∀ e ∈ es, u.config.Permits u.content (t.pastOf i) e.action)
    (himpact : Impact es (t.scenario.store destination) (s'.store destination)) :
    Sound s p destination
      ⟨s', t.attempts.set i { u with rest := rest }, t.past ++ es.map (fun e => (i, e))⟩ := by
  have hi : i < t.attempts.length := (List.getElem?_eq_some_iff.mp hu).1
  constructor
  case undisturbed => exact hundisturbed
  case known => exact hknown.trans h.known
  case fair =>
    intro j u' hu'
    rcases of_mem_set hu hu' with ⟨rfl, rfl⟩ | ⟨-, hu'⟩
    . exact h.fair j u hu
    . exact h.fair j u' hu'
  case faithful =>
    intro j u' hu'
    rw [pastOf_append]
    rcases of_mem_set hu hu' with ⟨rfl, rfl⟩ | ⟨hne, hu'⟩
    . rw [if_pos rfl]
      exact hrest
    . rw [if_neg (Ne.symm hne)]
      exact h.faithful j u' hu'
  case permitted =>
    -- The more an attempt was answered, the more it may do, so what it did stays permitted.
    intro e he
    rw [pastOf_append]
    rcases List.mem_append.mp he with he | he
    . obtain ⟨u', hu', hpermits'⟩ := h.permitted e he
      by_cases hj : i = e.1
      . rw [if_pos hj]
        subst hj
        rw [hu] at hu'
        cases hu'
        exact ⟨_, List.getElem?_set_self hi, Config.permits_mono (List.subset_append_left _ _) hpermits'⟩
      . rw [if_neg hj]
        exact ⟨u', (List.getElem?_set_ne hj).trans hu', hpermits'⟩
    . obtain ⟨e', he', rfl⟩ := List.mem_map.mp he
      rw [if_pos rfl]
      exact ⟨_, List.getElem?_set_self hi,
        Config.permits_mono (List.subset_append_left _ _) (hpermits e' he')⟩
  case impact =>
    rw [List.map_append, List.map_map]
    have hes : (Prod.snd ∘ fun e => (i, e)) = (id : Event → Event) := rfl
    rw [hes, List.map_id]
    exact h.impact.append himpact

theorem move_act_of_none {i : Nat} (h : t.attempts[i]? = none) : t.move (.act i) = t := by
  simp only [Concurrent.move, h]

theorem move_act_of_done {i : Nat} {u : Underway} (h : t.attempts[i]? = some u)
    {r : Except Registration.Error Unit} (hrest : u.rest = .done r) : t.move (.act i) = t := by
  rw [move_act_of_some h, step_of_done hrest, set_of_some h]
  simp

def Concurrent.Keeps (t t' : Concurrent) (destination : String) : Prop :=
  ∀ key j, (t.scenario.store destination).objects.get? key = some j →
    (t'.scenario.store destination).objects.get? key = some j

theorem sound_act (h : Sound s p destination t) (i : Nat) :
    Sound s p destination (t.move (.act i)) ∧ t.Keeps (t.move (.act i)) destination := by
  -- Acting is the only move that concerns the destination, and all that it may do there is to create.
  cases hu : t.attempts[i]? with
  | none =>
    rw [move_act_of_none hu]
    exact ⟨h, fun _ _ hj => hj⟩
  | some u =>
    cases hrest : u.rest with
    | done r =>
      rw [move_act_of_done hu hrest]
      exact ⟨h, fun _ _ hj => hj⟩
    | act a next =>
      obtain ⟨-, hdestination, hsource⟩ := h.fair i u hu
      have hfaithful := h.faithful i u hu
      rw [hrest] at hfaithful
      obtain ⟨hpermits, hnext⟩ := hfaithful
      rw [← h.known] at hdestination hsource
      obtain ⟨hundisturbed, hknown, hends⟩ :=
        step_cases h.undisturbed hdestination hsource hrest (onlyCreates_of_permits hpermits)
      rw [move_act_of_some hu]
      rcases hends with ⟨o, hstep, himpact⟩ | ⟨hstep, hstore⟩
      . rw [hstep]
        refine ⟨sound_of_step h hu [⟨a, o⟩] hundisturbed hknown (hnext o) ?_ himpact, ?_⟩
        . intro e he
          rw [List.mem_singleton] at he
          rw [he]
          exact hpermits
        . exact himpact.kept
      . rw [hstep]
        refine ⟨sound_of_step h hu [] hundisturbed hknown ⟨?_, nofun⟩ ?_ ?_, ?_⟩
        . nofun
        . intro e he
          cases he
        . rw [hstore]
          exact Impact.nil _
        . intro key j hj
          rw [hstore]
          exact hj

theorem sound_move (h : Sound s p destination t) {m : Move} (hm : m.Fair s p destination) :
    Sound s p destination (t.move m) ∧ t.Keeps (t.move m) destination := by
  have hspared {s' : Scenario} (hs' : Spared destination t.scenario s') :
      Sound s p destination { t with scenario := s' } ∧
        t.Keeps { t with scenario := s' } destination := by
    refine ⟨sound_of_spared h hs', ?_⟩
    intro key j hj
    rw [← hs'.store] at hj
    exact hj
  cases m with
  | begin c deadline => exact ⟨sound_begin h deadline hm, fun _ _ hj => hj⟩
  | act i => exact sound_act h i
  | edit e => exact hspared (spared_apply hm)
  | wait time => exact hspared ⟨rfl, rfl, rfl, rfl⟩

theorem sound_run (h : Sound s p destination t) {ms : List Move}
    (hms : ∀ m ∈ ms, m.Fair s p destination) :
    Sound s p destination (t.run ms) ∧ t.Keeps (t.run ms) destination := by
  -- On the moves. `Sound` says what the attempts may do, and every fair move keeps it.
  induction ms generalizing t with
  | nil => exact ⟨h, fun _ _ hj => hj⟩
  | cons m ms ih =>
    obtain ⟨hmove, hkept⟩ := sound_move h (hms m List.mem_cons_self)
    obtain ⟨hrun, hkept'⟩ := ih hmove (fun m' hm' => hms m' (List.mem_cons_of_mem m hm'))
    refine ⟨hrun, ?_⟩
    intro key j hj
    exact hkept' key j (hkept key j hj)

theorem sound_start (hhooks : s.hooks = []) (hfaults : ∀ r ∈ s.faults, r.effect.IsHarmless)
    (p : Publication) (destination : String) :
    Sound s p destination (Concurrent.start s) where
  undisturbed := ⟨hhooks, hfaults, rfl⟩
  known := rfl
  fair i u hu := by
    cases hu
  faithful i u hu := by
    cases hu
  permitted e he := by
    cases he
  impact := Impact.nil _

theorem pastOf_subset (t : Concurrent) (i : Nat) : t.pastOf i ⊆ t.past.map Prod.snd := by
  intro e he
  obtain ⟨⟨j, e'⟩, he', hsome⟩ := List.mem_filterMap.mp he
  split at hsome
  . cases hsome
    exact List.mem_map.mpr ⟨_, he', rfl⟩
  . cases hsome

theorem contains_of_established (h : Sound s p destination t) {i : Nat} {x : Write}
    (hside : x.side = .destination)
    (hx : Established (t.pastOf i) x) :
    (t.scenario.store destination).objects.contains (Store.inputKey x.input) = true :=
  h.impact.acknowledged x hside (established_mono (pastOf_subset t i) hx)

theorem exists_permitted (h : Sound s p destination t) {key : Store.Key} {j : Json}
    (hfree : (s.store destination).objects.contains key = false)
    (hj : (t.scenario.store destination).objects.get? key = some j) :
    ∃ (i : Nat) (u : Underway) (descriptor : Kubeconfig) (version : Nat), t.attempts[i]? = some u ∧
      u.config.Translates u.content (t.pastOf i) descriptor ∧
      (key = p.secretKey ∧ j = Store.stored (Store.created (p.secretInput descriptor) version) ∨
        key = p.clientConfigKey ∧ Established (t.pastOf i) (p.secretWrite descriptor)) := by
  rw [OrderedMap.contains_eq_false_iff] at hfree
  obtain ⟨e, he, operation, k, input, version, haction, hkey, hj⟩ := h.impact.new key j hfree hj
  obtain ⟨⟨i, e'⟩, he', rfl⟩ := List.mem_map.mp he
  obtain ⟨u, hu, hpermits⟩ := h.permitted _ he'
  obtain ⟨hp, -⟩ := h.fair i u hu
  rw [haction] at hpermits
  obtain ⟨descriptor, htranslates, hr⟩ := hpermits
  rw [hp] at hr
  refine ⟨i, u, descriptor, version, hu, htranslates, ?_⟩
  rcases hr with hr | ⟨hr, hestablished⟩
  . cases hr
    exact .inl ⟨hkey, hj⟩
  . cases hr
    exact .inr ⟨hkey, hestablished⟩

theorem get_secret_of_stored {p : Publication} {store : Store} {d : Kubeconfig} {version : Nat}
    (h : store.objects.get? p.secretKey =
      some (Store.stored (Store.created (p.secretInput d) version))) :
    ∃ secret : Object .secret, store.get .secret p.item = .ok secret ∧
      (SecretHeader.data secret.header).get? kubeconfigKey =
        some (base64Text (Text.Utf8.encode d.toYaml)) := by
  have hfits : Kind.SpecFits .secret (p.secretInput d).spec := trivial
  refine ⟨Store.created (p.secretInput d) version, ?_, ?_⟩
  . unfold Publication.secretKey at h
    rw [Store.get, h]
    apply Store.asKind_stored
    exact Store.fits_created hfits version
  . apply OrderedMap.get?_insert_self

theorem creations_le_one (h : Sound s p destination t) (key : Store.Key)
    (hfree : (s.store destination).objects.contains key = false) : t.creations key ≤ 1 := by
  have hcounted := h.impact.counted key
  rw [hfree, List.countP_map] at hcounted
  have hcreations : t.creations key = t.past.countP ((fun e => e.creates key) ∘ Prod.snd) := rfl
  rw [← hcreations] at hcounted
  split at hcounted
  . simp at hcounted
    omega
  . simp at hcounted
    omega

theorem decided_of_sound (h : Sound s p destination t)
    (hsecret : (s.store destination).objects.contains p.secretKey = false)
    (hclientConfig : (s.store destination).objects.contains p.clientConfigKey = false) :
    Decided p destination t := by
  have hne : p.clientConfigKey ≠ p.secretKey := Store.key_ne (by decide) _ _
  constructor
  case referred =>
    intro hcontains
    obtain ⟨j, hj⟩ := (OrderedMap.contains_iff _ _).mp hcontains
    obtain ⟨i, u, descriptor, version, hu, -, ⟨hkey, -⟩ | ⟨-, hestablished⟩⟩ :=
      exists_permitted h hclientConfig hj
    . exact absurd hkey hne
    -- Only an attempt that knows of the secret creates a client config.
    . have hcontains := contains_of_established h rfl hestablished
      exact hcontains
  case translated =>
    intro hcontains
    obtain ⟨j, hj⟩ := (OrderedMap.contains_iff _ _).mp hcontains
    obtain ⟨i, u, d, version, hu, htranslates, ⟨-, hstored⟩ | ⟨hkey, -⟩⟩ :=
      exists_permitted h hsecret hj
    . obtain ⟨host, credential, hhost, hlisted, htranslate⟩ := htranslates
      obtain ⟨token, ca, htoken, hca, rfl⟩ := (translate_eq_ok_iff _ _ _ _).mp htranslate
      obtain ⟨hp, -⟩ := h.fair i u hu
      rw [hp] at hstored
      rw [hstored] at hj
      obtain ⟨secret, hget, hpayload⟩ := get_secret_of_stored hj
      exact ⟨i, u, host, credential, token, ca, secret, hu, hhost, hlisted, htoken, hca, hget, hpayload⟩
    . exact absurd hkey.symm hne
  case once => exact ⟨creations_le_one h _ hsecret, creations_le_one h _ hclientConfig⟩
  case registered =>
    intro u hu hrest
    obtain ⟨i, hu⟩ := List.mem_iff_getElem?.mp hu
    have hfaithful := h.faithful i u hu
    rw [hrest] at hfaithful
    obtain ⟨hp, -⟩ := h.fair i u hu
    obtain ⟨descriptor, -, hsecret, hclientConfig⟩ := hfaithful.published rfl
    rw [hp] at hsecret hclientConfig
    have hsecret := contains_of_established h rfl hsecret
    have hclientConfig := contains_of_established h rfl hclientConfig
    exact ⟨hsecret, hclientConfig⟩

/--
However the actions of the attempts and of others follow each other, one attempt gets the place, and what
it has put there stays.
-/
theorem race_is_decided (hhooks : s.hooks = []) (hfaults : ∀ r ∈ s.faults, r.effect.IsHarmless)
    (hsecret : (s.store destination).objects.contains p.secretKey = false)
    (hclientConfig : (s.store destination).objects.contains p.clientConfigKey = false)
    {ms : List Move} (hms : ∀ m ∈ ms, m.Fair s p destination) :
    Decided p destination ((Concurrent.start s).run ms) ∧
      ∀ later : List Move, (∀ m ∈ later, m.Fair s p destination) →
        ((Concurrent.start s).run ms).Keeps (((Concurrent.start s).run ms).run later) destination := by
  obtain ⟨hsound, -⟩ := sound_run (sound_start hhooks hfaults p destination) hms
  refine ⟨decided_of_sound hsound hsecret hclientConfig, ?_⟩
  intro later hlater
  exact (sound_run hsound hlater).2

end Moves

theorem race_is_decided_of_sample :
    let s := sampleIssued "t" [1, 2]
    let p := sample.publication
    let t (n : Nat) := (Concurrent.start s).run
      (.begin sample Deadline.never :: .begin sample Deadline.never :: List.replicate n (.act 0))
    let later := Move.edit (.replace "a" (sample.identity.filled "u" [3])) ::
      List.replicate 6 (.act 1)
    ∃ n, (∃ u ∈ (t n).attempts, u.rest = .done (.ok ())) ∧ Decided p "b" (t n) ∧
      (t n).Keeps ((t n).run later) "b" := by
  intro s p t later
  obtain ⟨hsource, hdestination⟩ := storeOf?_sampleIssued "t" [1, 2]
  have hbegin : (Move.begin sample Deadline.never).Fair s p "b" := by
    refine ⟨rfl, hdestination, ?_⟩
    rw [hsource]
    decide
  have hms (n : Nat) : ∀ m ∈ Move.begin sample Deadline.never :: .begin sample Deadline.never ::
      List.replicate n (.act 0), m.Fair s p "b" := by
    intro m hm
    rcases List.mem_cons.mp hm with rfl | hm
    . exact hbegin
    . rcases List.mem_cons.mp hm with rfl | hm
      . exact hbegin
      . rw [List.eq_of_mem_replicate hm]
        trivial
  have hlater : ∀ m ∈ later, m.Fair s p "b" := by
    intro m hm
    rcases List.mem_cons.mp hm with rfl | hm
    . show "a" ≠ "b"
      decide
    . rw [List.eq_of_mem_replicate hm]
      trivial
  let u : Underway := ⟨sample, s.files.read sample.source.kubeconfig, Deadline.never,
    sample.attempt (s.files.read sample.source.kubeconfig)⟩
  obtain ⟨n, -, hattempts⟩ := exists_acts (t := ⟨s, [u, u], []⟩) (i := 0) (u := u) rfl
  have hfaults : s.faults = [] := rfl
  have hfree (key : Store.Key) : (s.store "b").objects.contains key = false := by
    rw [store_sampleIssued_destination]
    rfl
  obtain ⟨hdecided, hkept⟩ := race_is_decided rfl (by rw [hfaults]; nofun) (hfree p.secretKey)
    (hfree p.clientConfigKey) (hms n)
  obtain ⟨hok, -⟩ := @register_sampleIssued "t" [1, 2] rfl (List.cons_ne_nil _ _)
  refine ⟨n, ⟨{ u with rest := .done (u.finish s).1 }, ?_, ?_⟩, hdecided, hkept later hlater⟩
  . show _ ∈ ((⟨s, [u, u], []⟩ : Concurrent).run (List.replicate n (.act 0))).attempts
    rw [hattempts]
    exact List.mem_cons_self
  . show Script.done (u.finish s).1 = _
    rw [finish_begun]
    exact congrArg Script.done hok

end ClusterRegistration.Scenario
