import ClusterRegistration.Proofs.Registration.Course
import ClusterRegistration.Proofs.Registration.Publication
import ClusterRegistration.Proofs.Scenario.Convergence

/-!
This module contains what one attempt at a registration does to the stores, as far as its outcome
tells.
-/

namespace ClusterRegistration

namespace Registration.Config

def sourceKeys (c : Config) : List Store.Key :=
  [Store.inputKey c.identity.accountInput, Store.inputKey c.identity.placeholder]

def destinationKeys (c : Config) : List Store.Key :=
  [Store.Key.of .secret ⟨c.publication.name, c.publication.ns⟩,
    Store.Key.of .clientConfig ⟨c.publication.name, c.publication.ns⟩]

variable {c : Config} {host : String} {s : Store} {p : Prospect Unit} {x : Write}

theorem key_of_mem_writes (h : c.Course host s p) (hx : x ∈ p.writes) :
    x.side = .source ∧ Store.inputKey x.input ∈ c.sourceKeys ∨
      x.side = .destination ∧ Store.inputKey x.input ∈ c.destinationKeys := by
  cases h with
  | failed e he => cases hx
  | missing hmissing =>
    rw [List.mem_singleton] at hx
    subst hx
    exact .inl ⟨rfl, List.mem_cons_self⟩
  | unbound account haccount hbound =>
    rw [List.mem_singleton] at hx
    subst hx
    exact .inl ⟨rfl, List.mem_cons_of_mem _ List.mem_cons_self⟩
  | published credential descriptor hissued hdescriptor =>
    rcases List.mem_cons.mp hx with rfl | hx
    . exact .inr ⟨rfl, List.mem_cons_self⟩
    . rw [List.mem_singleton] at hx
      subst hx
      exact .inr ⟨rfl, List.mem_cons_of_mem _ List.mem_cons_self⟩

theorem contains_applied (c : Config) (descriptor : Kubeconfig) (s : Store) {key : Store.Key}
    (h : key ∈ c.destinationKeys) :
    (c.publication.applied descriptor s).objects.contains key = true := by
  rcases List.mem_cons.mp h with rfl | h
  . apply Store.contains_ensure_of_contains
    exact Store.contains_ensure_self _ (c.publication.secretInput descriptor)
  . rw [List.mem_singleton] at h
    subst h
    exact Store.contains_ensure_self _ c.publication.clientConfigInput

end Registration.Config

namespace Scenario

open Registration

def OnlyChanges (s s' : Scenario) (name : String) : Prop :=
  ∀ other, other ≠ name → s'.store other = s.store other

/--
The stores after an attempt that has begun at `s`, ended at `s'` and given `r`.
-/
structure Effect (c : Config) (s s' : Scenario) (r : Except Registration.Error Unit) : Prop where
  /-- What exists is neither changed nor removed. -/
  kept : ∀ name key j, (s.store name).objects.get? key = some j →
    (s'.store name).objects.get? key = some j
  /-- What is new has one of four keys. -/
  new : ∀ name key, (s.store name).objects.contains key = false →
    (s'.store name).objects.contains key = true →
    s.storeOf? c.source = some name ∧ key ∈ c.sourceKeys ∨
      s.storeOf? c.destination = some name ∧ key ∈ c.destinationKeys
  /-- A registered cluster is published, and nothing but that has happened. -/
  ok : r = .ok () → ∃ destination descriptor,
    s.storeOf? c.destination = some destination ∧
    s'.store destination = ((s.store destination).ensure (c.publication.secretInput descriptor)).ensure
      c.publication.clientConfigInput ∧
    (∀ key ∈ c.destinationKeys, (s'.store destination).objects.contains key = true) ∧
    s.OnlyChanges s' destination
  /-- What is fatal is found before anything is written, and so is a target that is not reached. -/
  fatal : ∀ e, r = .error e → (e.isRecoverable = false ∨ ∃ target source, e = .connect target source) →
    ∀ name, s'.store name = s.store name
  identityNotReady : ∀ name ns, r = .error (.identityNotReady name ns) → ∃ source account,
    s.storeOf? c.source = some source ∧
    (s.store source).create c.identity.accountInput = .ok (account, s'.store source) ∧
    s.OnlyChanges s' source
  noCredential : ∀ name ns, r = .error (.noCredential name ns) →
    (∀ name, s'.store name = s.store name) ∨ ∃ source placeholder,
      s.storeOf? c.source = some source ∧
      (s.store source).create c.identity.placeholder = .ok (placeholder, s'.store source) ∧
      s.OnlyChanges s' source
  /-- A failure that has nothing to do with the token leaves at most the secret behind. -/
  cutShort : ∀ e, r = .error e → e.isPending = false →
    (∀ name, s'.store name = s.store name) ∨ ∃ destination descriptor secret,
      s.storeOf? c.destination = some destination ∧
      (s.store destination).create (c.publication.secretInput descriptor) =
        .ok (secret, s'.store destination) ∧
      s.OnlyChanges s' destination

theorem not_isPending_of_failure {hz : Hazard} {e : Registration.Error} (h : hz.Failure e) :
    e.isRecoverable = true ∧ e.isPending = false ∧ ∀ target source, e ≠ .connect target source := by
  rcases h with ⟨operation, source, rfl, -⟩ | ⟨operation, rfl, -⟩
  . simp [Error.isRecoverable, Error.isPending]
  . simp [Error.isRecoverable, Error.isPending]

theorem effect_of_unchanged {c : Config} {s s' : Scenario} {e : Registration.Error}
    (h : ∀ name, s'.store name = s.store name) (he : ∀ name ns, e ≠ .identityNotReady name ns) :
    Effect c s s' (.error e) where
  kept name key j hj := by
    rw [h]
    exact hj
  new name key hold hnew := by
    rw [h, hold] at hnew
    cases hnew
  ok hok := by cases hok
  fatal _ _ _ := h
  identityNotReady name ns hr := by
    cases hr
    exact absurd rfl (he name ns)
  noCredential _ _ _ := .inl h
  cutShort _ _ _ := .inl h

section Outcomes

variable {c : Config} {s s' : Scenario} {host source destination : String} {st : Store}
  {p : Prospect Unit} {xs : List Write}

theorem store_of_clustersAt {w : Clusters} (h : s'.clustersAt c.target = w) (name : String) :
    s'.store name = w.store name :=
  congrArg (fun w => w.store name) h

theorem kept_of_applyAll (h : s'.clustersAt c.target = (s.clustersAt c.target).applyAll xs)
    {name : String} {key : Store.Key} {j : Json}
    (hj : (s.store name).objects.get? key = some j) :
    (s'.store name).objects.get? key = some j := by
  rw [store_of_clustersAt h]
  apply Clusters.get?_applyAll_of_some xs hj

theorem new_of_applyAll (h : s'.clustersAt c.target = (s.clustersAt c.target).applyAll xs)
    (hcourse : c.Course host st p) (hxs : xs <+: p.writes) {name : String} {key : Store.Key}
    (hold : (s.store name).objects.contains key = false)
    (hnew : (s'.store name).objects.contains key = true) :
    s.storeOf? c.source = some name ∧ key ∈ c.sourceKeys ∨
      s.storeOf? c.destination = some name ∧ key ∈ c.destinationKeys := by
  rw [store_of_clustersAt h] at hnew
  rcases Clusters.of_contains_applyAll hnew with hkept | ⟨x, hx, hname, rfl⟩
  . have hkept : (s.store name).objects.contains key = true := hkept
    rw [hold] at hkept
    cases hkept
  . rcases Config.key_of_mem_writes hcourse (hxs.subset hx) with ⟨hside, hkey⟩ | ⟨hside, hkey⟩
    . rw [hside] at hname
      exact .inl ⟨hname, hkey⟩
    . rw [hside] at hname
      exact .inr ⟨hname, hkey⟩

theorem created_of_apply {x : Write} {name : String}
    (hname : (s.clustersAt c.target).storeAt? x.side = some name)
    (hkey : (s.store name).objects.contains (Store.inputKey x.input) = false)
    (h : ∀ other, s'.store other = ((s.clustersAt c.target).apply x).store other) :
    ∃ o, (s.store name).create x.input = .ok (o, s'.store name) ∧ s.OnlyChanges s' name := by
  obtain ⟨o, hcreate⟩ := Clusters.create_of_absent hname hkey
  refine ⟨o, ?_, ?_⟩
  . rw [h]
    exact hcreate
  . intro other hother
    rw [h]
    exact Clusters.store_apply_of_ne hname hother

theorem effect_of_existing {x : Write} {name : String} {e : Registration.Error}
    (hname : (s.clustersAt c.target).storeAt? x.side = some name)
    (hkey : (s.store name).objects.contains (Store.inputKey x.input) = true)
    (h : s'.clustersAt c.target = (s.clustersAt c.target).applyAll [x])
    (he : ∀ name ns, e ≠ .identityNotReady name ns) : Effect c s s' (.error e) := by
  have hsame : s'.clustersAt c.target = s.clustersAt c.target :=
    h.trans (Clusters.apply_of_contains hname hkey)
  exact effect_of_unchanged (store_of_clustersAt hsame) he

theorem effect_of_course (hsource : s.storeOf? c.source = some source)
    (hdestination : s.storeOf? c.destination = some destination)
    (hcourse : c.Course host (s.store source) p)
    (h : s'.clustersAt c.target = (s.clustersAt c.target).applyAll p.writes) :
    Effect c s s' p.result := by
  have hkept (name : String) (key : Store.Key) (j : Json) := @kept_of_applyAll _ _ _ _ h name key j
  have hnew (name : String) (key : Store.Key) :=
    @new_of_applyAll _ _ _ _ _ _ _ h hcourse List.prefix_rfl name key
  have hstore := store_of_clustersAt h
  cases hcourse with
  | failed e he => exact effect_of_unchanged hstore he
  | missing hmissing =>
    have hside : (s.clustersAt c.target).storeAt? c.identity.accountWrite.side = some source := hsource
    obtain ⟨account, hcreate, hothers⟩ := created_of_apply hside hmissing hstore
    refine ⟨hkept, hnew, nofun, ?_, ?_, nofun, ?_⟩
    . rintro e ⟨⟩ (he | ⟨target, e, ⟨⟩⟩)
      cases he
    . intro _ _ _
      exact ⟨source, account, hsource, hcreate, hothers⟩
    . rintro e ⟨⟩ he
      cases he
  | unbound account haccount hbound =>
    have hside : (s.clustersAt c.target).storeAt? c.identity.placeholderWrite.side = some source :=
      hsource
    -- An earlier attempt, or someone else, may have created a secret of that name.
    cases hkey : (s.store source).objects.contains (Store.inputKey c.identity.placeholder) with
    | true => exact effect_of_existing hside hkey h (by simp)
    | false =>
      obtain ⟨placeholder, hcreate, hothers⟩ := created_of_apply hside hkey hstore
      refine ⟨hkept, hnew, nofun, ?_, nofun, ?_, ?_⟩
      . rintro e ⟨⟩ (he | ⟨target, e, ⟨⟩⟩)
        cases he
      . intro _ _ _
        exact .inr ⟨source, placeholder, hsource, hcreate, hothers⟩
      . rintro e ⟨⟩ he
        cases he
  | published credential descriptor hissued hdescriptor =>
    have hside : (s.clustersAt c.target).storeAt? .destination = some destination := hdestination
    have hpublished : s'.store destination =
        ((s.store destination).ensure (c.publication.secretInput descriptor)).ensure
          c.publication.clientConfigInput := by
      rw [hstore]
      exact Publication.store_applyAll_writes hside c.publication descriptor
    refine ⟨hkept, hnew, ?_, nofun, nofun, nofun, nofun⟩
    intro _
    refine ⟨destination, descriptor, hdestination, hpublished, ?_, ?_⟩
    . intro key hkey
      rw [hpublished]
      exact Config.contains_applied c descriptor _ hkey
    . intro other hother
      rw [hstore]
      exact Publication.store_applyAll_writes_of_ne hside c.publication descriptor hother

theorem effect_of_failure (hdestination : s.storeOf? c.destination = some destination)
    (hcourse : c.Course host st p) {e : Registration.Error} (hpending : e.isPending = false)
    (hrecoverable : e.isRecoverable = true) (hconnect : ∀ target source, e ≠ .connect target source)
    (hxs : xs <+: p.writes) (hpart : xs ≠ p.writes ∨ p.writes = [])
    (h : s'.clustersAt c.target = (s.clustersAt c.target).applyAll xs) :
    Effect c s s' (.error e) := by
  have hstore := store_of_clustersAt h
  have he : ∀ name ns, e ≠ .identityNotReady name ns := by
    rintro name ns rfl
    cases hpending
  -- A course that is cut short has written nothing yet, or the secret but not the client config.
  have hsplit : xs = [] ∨ ∃ descriptor, xs = [c.publication.secretWrite descriptor] := by
    rcases hpart with hpart | hnil
    . rcases hcourse.eq_nil_or_secret hxs hpart with hnil | ⟨descriptor, -, hsecret⟩
      . exact .inl hnil
      . exact .inr ⟨descriptor, hsecret⟩
    . rw [hnil, List.prefix_nil] at hxs
      exact .inl hxs
  rcases hsplit with rfl | ⟨descriptor, rfl⟩
  . exact effect_of_unchanged hstore he
  . have hside : (s.clustersAt c.target).storeAt? (c.publication.secretWrite descriptor).side =
        some destination := hdestination
    cases hkey : (s.store destination).objects.contains
        (Store.inputKey (c.publication.secretInput descriptor)) with
    | true => exact effect_of_existing hside hkey h he
    | false =>
      obtain ⟨secret, hcreate, hothers⟩ := created_of_apply hside hkey hstore
      refine ⟨fun _ _ _ => kept_of_applyAll h, fun _ _ => new_of_applyAll h hcourse hxs, nofun, ?_,
        ?_, ?_, ?_⟩
      . rintro _ ⟨⟩ (hfatal | ⟨target, source, rfl⟩)
        . rw [hrecoverable] at hfatal
          cases hfatal
        . exact absurd rfl (hconnect target source)
      . rintro name ns ⟨⟩
        exact absurd rfl (he name ns)
      . rintro name ns ⟨⟩
        cases hpending
      . intro _ _ _
        exact .inr ⟨destination, descriptor, secret, hdestination, hcreate, hothers⟩

end Outcomes

/--
The outcome of an attempt tells what it did, whatever the clusters hold, and whichever calls fail or
are cut off.
-/
theorem register_effect (s : Scenario) (c : Config) (deadline : Deadline) (hhooks : s.hooks = [])
    (hfaults : ∀ r ∈ s.faults, r.effect ≠ .notFound ∧ r.effect ≠ .alreadyExists) :
    Effect c s (register .stores c deadline s).2 (register .stores c deadline s).1 := by
  have hundisturbed : s.Undisturbed Fault.IsHarmless s.files := ⟨hhooks, hfaults, rfl⟩
  obtain ⟨-, hends⟩ := register_ends (fun _ h => h) hundisturbed c deadline
  generalize register .stores c deadline s = out at hends ⊢
  obtain ⟨r, s'⟩ := out
  rcases hends with hreaches | ⟨target, e, rfl, -, h⟩
  . rcases c.prospect_cases (s.files.read c.source.kubeconfig) (s.clustersAt c.target) with
      ⟨e, he, hprospect⟩ | ⟨host, source, destination, hsource, hdestination, hprospect⟩
    . rw [hprospect _ rfl] at hreaches
      rcases hreaches with ⟨rfl, h⟩ | ⟨e', xs, rfl, hfailure, hxs, h, -⟩
      . exact effect_of_unchanged (store_of_clustersAt h) he
      . obtain ⟨-, hpending, -⟩ := not_isPending_of_failure hfailure
        rw [Prospect.fail, List.prefix_nil] at hxs
        subst hxs
        apply effect_of_unchanged (store_of_clustersAt h)
        rintro name ns rfl
        cases hpending
    . rw [hprospect _ rfl] at hreaches
      have hcourse := c.advanced_course host (s.store source)
      rcases hreaches with ⟨rfl, h⟩ | ⟨e, xs, rfl, hfailure, hxs, h, hlate | hpart⟩
      . exact effect_of_course hsource hdestination hcourse h
      . cases hlate
      . obtain ⟨hrecoverable, hpending, hconnect⟩ := not_isPending_of_failure hfailure
        exact effect_of_failure hdestination hcourse hpending hrecoverable hconnect hxs hpart h
  . exact effect_of_unchanged (store_of_clustersAt h) (by simp)

theorem register_effect_of_io :
    let s : Scenario :=
      { sampleIssued "t" [1, 2] with
        faults := [⟨⟨some "b", some "create", none⟩, 1, 1, .io "unreachable"⟩] }
    let r := (register .stores sample Deadline.never s).1
    let s' := (register .stores sample Deadline.never s).2
    (∀ rule ∈ s.faults, rule.effect ≠ .notFound ∧ rule.effect ≠ .alreadyExists) ∧
      r.mapError (·.message) = .error "create client config failed: io: unreachable" ∧
      sample.destinationKeys.map (s.store "b").objects.contains = [false, false] ∧
      sample.destinationKeys.map (s'.store "b").objects.contains = [true, false] ∧
      Effect sample s s' r := by
  intro s r s'
  have hfaults : ∀ rule ∈ s.faults, rule.effect ≠ .notFound ∧ rule.effect ≠ .alreadyExists := by
    simp [s]
  have hself : sample.isSelfRegistration = false := by decide +kernel
  have hhost : resolveHost sample.source (s.files.read sample.source.kubeconfig) = .ok "https://source" :=
    resolveHost_sample
  have hrun : (r.mapError (·.message), sample.destinationKeys.map (s'.store "b").objects.contains) =
      (.error "create client config failed: io: unreachable", [true, false]) := by
    unfold r s'
    rw [register_stores, Config.attempt_eq_of_host hself hhost]
    decide +kernel
  obtain ⟨hr, hkeys⟩ := Prod.mk.inj hrun
  exact ⟨hfaults, hr, by decide +kernel, hkeys, register_effect s sample Deadline.never rfl hfaults⟩

end Scenario

end ClusterRegistration
