import ClusterRegistration.Proofs.Registration.Issue
import ClusterRegistration.Proofs.Scenario.Reference

namespace ClusterRegistration

open Registration

namespace Registration.Identity

variable {i : Identity} {s : Store}

/--
The token controller is asked for a token of the account: there is a secret of the type that it populates,
with the annotation of the account.
-/
def IsRequested (i : Identity) (s : Store) : Prop :=
  ∃ (name : String) (secret : Object .secret), s.get .secret ⟨name, i.ns⟩ = .ok secret ∧
    SecretHeader.type secret.header = SecretHeader.serviceAccountToken ∧
    secret.metadata.annotations.get? SecretHeader.serviceAccountAnnotation = some i.serviceAccount

/--
The token controller is not asked, and can not be, because the name of the secret is taken.
-/
def IsBlocked (i : Identity) (s : Store) : Prop :=
  ¬ i.IsRequested s ∧ s.objects.contains i.placeholderKey = true

theorem isBoundToken_iff {secret : Object .secret} :
    i.isBoundToken secret = true ↔
      SecretHeader.type secret.header = SecretHeader.serviceAccountToken ∧
        secret.metadata.annotations.get? SecretHeader.serviceAccountAnnotation =
          some i.serviceAccount := by
  simp [isBoundToken, SecretHeader.isServiceAccountToken]

theorem isRequested_iff :
    i.IsRequested s ↔ ∃ name secret, s.get .secret ⟨name, i.ns⟩ = .ok secret ∧
      i.isBoundToken secret = true := by
  simp only [IsRequested, isBoundToken_iff]

theorem isRequested_of_bound {found : Option (Object .secret)} (h : i.bound s = .ok found) :
    i.IsRequested s ↔ found.isSome = true := by
  unfold bound Store.firstIn at h
  cases hlist : s.list .secret (.inNamespace i.ns) with
  | error e =>
    rw [hlist] at h
    cases h
  | ok l =>
    rw [hlist] at h
    have hmem := Store.mem_items_iff rfl hlist
    have hfind : l.items.find? i.isBoundToken = found := by
      injection h
    rw [← hfind, List.find?_isSome, isRequested_iff]
    simp only [hmem]
    constructor
    . rintro ⟨name, secret, hget, hbound⟩
      exact ⟨secret, ⟨name, hget⟩, hbound⟩
    . rintro ⟨secret, ⟨name, hget⟩, hbound⟩
      exact ⟨name, secret, hget, hbound⟩

theorem isRequested_ensure_placeholder (h : s.objects.contains i.placeholderKey = false) :
    i.IsRequested (s.ensure i.placeholder) := by
  rw [isRequested_iff]
  exact ⟨i.placeholderName, _, Store.get_ensure_self trivial h, i.isBoundToken_placeholder _⟩

theorem located_of_noCredential {account ns : String}
    (h : (i.located s).result = .error (.noCredential account ns)) :
    i.IsRequested s ∧ (i.located s).writes = [] ∨
      ¬ i.IsRequested s ∧ (i.located s).writes = [i.placeholderWrite] := by
  unfold located at h ⊢
  cases hbound : i.bound s with
  | error e =>
    rw [hbound] at h
    cases h
  | ok found =>
    rw [hbound] at h
    rw [isRequested_of_bound hbound]
    cases found with
    | none => exact .inr ⟨Bool.false_ne_true, rfl⟩
    | some secret =>
      left
      refine ⟨rfl, ?_⟩
      dsimp only
      split <;> rfl

end Registration.Identity

namespace Scenario

section SingleStore

variable {s : Scenario} {name : String} {i : Identity}

theorem located_of_noCredential {deadline : Deadline} {account ns : String} (hhooks : s.hooks = [])
    (hfaults : ∀ r ∈ s.faults, r.effect.IsHarmless)
    (hpending : (followOn name deadline i.locate s).1 = .error (.noCredential account ns)) :
    (i.located (s.store name)).result = .error (.noCredential account ns) ∧
      (followOn name deadline i.locate s).2.store name =
        ((s.clustersIn name).applyAll (i.located (s.store name)).writes).store name := by
  have hundisturbed : s.Undisturbed Fault.IsHarmless s.files := ⟨hhooks, hfaults, rfl⟩
  have hreaches := i.locate_reaches (hazard_harmless (fun _ => id) deadline)
    (rfl : (s.clustersIn name).storeAt? .source = some name)
  rcases followOn_always hundisturbed hreaches with ⟨hr, hstore⟩ | ⟨e, xs, hr, hfailure, -⟩
  . exact ⟨hr.symm.trans hpending, congrArg (fun w => w.store name) hstore⟩
  . rw [hpending] at hr
    rcases hfailure with ⟨operation, source, rfl, -⟩ | ⟨operation, rfl, -⟩ <;> cases hr

theorem store_of_noCredential {deadline : Deadline} {account ns : String} (hhooks : s.hooks = [])
    (hfaults : ∀ r ∈ s.faults, r.effect.IsHarmless)
    (hpending : (followOn name deadline i.locate s).1 = .error (.noCredential account ns)) :
    i.IsRequested (s.store name) ∧ (followOn name deadline i.locate s).2.store name = s.store name ∨
      ¬ i.IsRequested (s.store name) ∧
        (followOn name deadline i.locate s).2.store name = (s.store name).ensure i.placeholder := by
  obtain ⟨hresult, hafter⟩ := located_of_noCredential hhooks hfaults hpending
  rw [hafter]
  rcases Identity.located_of_noCredential hresult with ⟨hrequested, hwrites⟩ | ⟨hrequested, hwrites⟩
  . rw [hwrites]
    exact .inl ⟨hrequested, rfl⟩
  . rw [hwrites, Clusters.applyAll_cons, Clusters.applyAll_nil]
    exact .inr ⟨hrequested, Clusters.store_apply_self (w := s.clustersIn name) rfl⟩

theorem followOn_locate_of_quiet (hhooks : s.hooks = []) (hfaults : s.faults = []) :
    (followOn name Deadline.never i.locate s).1 = (i.located (s.store name)).result := by
  have hquiet : s.Quiet s.files := by
    refine ⟨hhooks, ?_, rfl⟩
    simp [hfaults]
  have hreaches := i.locate_reaches (hazard_harmless (fun _ => False.elim) Deadline.never)
    (rfl : (s.clustersIn name).storeAt? .source = some name)
  rcases followOn_always hquiet hreaches with ⟨hr, -⟩ | ⟨e, xs, -, hfailure, -⟩
  . exact hr
  . rcases hfailure with ⟨operation, source, -, he⟩ | ⟨operation, -, hcut⟩
    . exact absurd he (not_error_of_quiet source)
    . exact absurd hcut not_cut_of_quiet

end SingleStore

/--
The law of pending registrations. When there is no credential and nothing has failed, the token controller
is asked for a token, unless another secret has the name of the one that asks. Then nothing happens, and it
is no different whenever it is tried again.
-/
theorem pending_law (s : Scenario) (name : String) (deadline : Deadline) (i : Identity)
    (hhooks : s.hooks = []) (hfaults : ∀ r ∈ s.faults, r.effect.IsHarmless) (account ns : String)
    (hpending : (followOn name deadline i.locate s).1 = .error (.noCredential account ns)) :
    let after := (followOn name deadline i.locate s).2.store name
    (i.IsRequested after ↔ ¬ i.IsBlocked (s.store name)) ∧
      (i.IsBlocked (s.store name) → after = s.store name ∧
        ∀ s' : Scenario, s'.hooks = [] → s'.faults = [] → s'.store name = after →
          (followOn name Deadline.never i.locate s').1 = .error (.noCredential account ns)) := by
  intro after
  have hresult := (located_of_noCredential hhooks hfaults hpending).1
  rcases store_of_noCredential hhooks hfaults hpending with ⟨hrequested, hafter⟩ | ⟨hrequested, hafter⟩
  . have hafter : after = s.store name := hafter
    have hfree : ¬ i.IsBlocked (s.store name) := fun hblocked => hblocked.1 hrequested
    rw [hafter]
    exact ⟨iff_of_true hrequested hfree, fun hblocked => absurd hblocked hfree⟩
  have hafter : after = (s.store name).ensure i.placeholder := hafter
  cases hkey : (s.store name).objects.contains i.placeholderKey with
  | true =>
    have hblocked : i.IsBlocked (s.store name) := ⟨hrequested, hkey⟩
    have hsame : after = s.store name := hafter.trans (Store.ensure_of_contains hkey)
    rw [hsame]
    refine ⟨iff_of_false hrequested (not_not_intro hblocked), fun _ => ⟨rfl, ?_⟩⟩
    intro s' hhooks' hfaults' hstore
    rw [followOn_locate_of_quiet hhooks' hfaults', hstore]
    exact hresult
  | false =>
    have hfree : ¬ i.IsBlocked (s.store name) := by
      rintro ⟨-, htaken⟩
      rw [hkey] at htaken
      cases htaken
    rw [hafter]
    exact ⟨iff_of_true (Identity.isRequested_ensure_placeholder hkey) hfree,
      fun hblocked => absurd hblocked hfree⟩

section Sample

def sampleRobot : Identity :=
  ⟨"apps", "robot"⟩

def sampleTaken : ObjectInput .secret :=
  ObjectInput.new (.named "robot-secret" "apps") () (SecretHeader.typed SecretHeader.opaqueType)

def sampleFree : Scenario :=
  start [] FileTree.empty

def sampleBlocked : Scenario :=
  sampleFree.putStore "a" (Store.empty.ensure sampleTaken)

theorem harmless_sampleFree : ∀ r ∈ sampleFree.faults, r.effect.IsHarmless := by
  intro r hr
  cases hr

theorem bound_sampleFree : sampleRobot.bound (sampleFree.store "a") = .ok none :=
  rfl

theorem bound_sampleBlocked : sampleRobot.bound (sampleBlocked.store "a") = .ok none := by
  have hfits : Kind.SpecFits .secret sampleTaken.spec := trivial
  have hother : ∀ version, sampleRobot.isBoundToken (Store.created sampleTaken version) = false :=
    fun _ => rfl
  exact (Store.firstIn_ensure_of_not hfits hother).trans bound_sampleFree

theorem isBlocked_sampleBlocked : sampleRobot.IsBlocked (sampleBlocked.store "a") := by
  refine ⟨?_, rfl⟩
  rw [Identity.isRequested_of_bound bound_sampleBlocked]
  exact Bool.false_ne_true

theorem followOn_sampleFree :
    (followOn "a" Deadline.never sampleRobot.locate sampleFree).1 = .error (.noCredential "robot" "apps") := by
  rw [followOn_locate_of_quiet rfl rfl, Identity.located, bound_sampleFree]
  rfl

theorem followOn_sampleBlocked :
    (followOn "a" Deadline.never sampleRobot.locate sampleBlocked).1 =
      .error (.noCredential "robot" "apps") := by
  rw [followOn_locate_of_quiet rfl rfl, Identity.located, bound_sampleBlocked]
  rfl

theorem not_isBlocked_sampleFree : ¬ sampleRobot.IsBlocked (sampleFree.store "a") := by
  rintro ⟨-, htaken⟩
  cases htaken

theorem pending_law_of_sample :
    (∀ s ∈ [sampleFree, sampleBlocked], s.hooks = [] ∧ (∀ r ∈ s.faults, r.effect.IsHarmless) ∧
        (followOn "a" Deadline.never sampleRobot.locate s).1 =
          .error (.noCredential "robot" "apps")) ∧
      sampleRobot.IsRequested ((followOn "a" Deadline.never sampleRobot.locate sampleFree).2.store "a") ∧
      (followOn "a" Deadline.never sampleRobot.locate sampleBlocked).2.store "a" =
        sampleBlocked.store "a" := by
  have hfree := pending_law sampleFree "a" Deadline.never sampleRobot rfl harmless_sampleFree _ _
    followOn_sampleFree
  have hblocked := pending_law sampleBlocked "a" Deadline.never sampleRobot rfl harmless_sampleFree _ _
    followOn_sampleBlocked
  refine ⟨?_, hfree.1.mpr not_isBlocked_sampleFree, (hblocked.2 isBlocked_sampleBlocked).1⟩
  simp only [List.forall_mem_cons]
  exact ⟨⟨rfl, harmless_sampleFree, followOn_sampleFree⟩,
    ⟨rfl, harmless_sampleFree, followOn_sampleBlocked⟩, fun _ h => nomatch h⟩

theorem unrequested_while_pending :
    ¬ ∀ (s : Scenario) (name : String) (i : Identity), s.hooks = [] → s.faults = [] →
      (followOn name Deadline.never i.locate s).1 = .error (.noCredential i.serviceAccount i.ns) →
        i.IsRequested ((followOn name Deadline.never i.locate s).2.store name) := by
  intro hrequests
  have hrequested := hrequests sampleBlocked "a" sampleRobot rfl rfl followOn_sampleBlocked
  obtain ⟨hnot, htaken⟩ := isBlocked_sampleBlocked
  rcases store_of_noCredential (s := sampleBlocked) rfl harmless_sampleFree followOn_sampleBlocked with
    ⟨hbefore, -⟩ | ⟨-, hafter⟩
  . exact hnot hbefore
  . have hsame : (sampleBlocked.store "a").ensure sampleRobot.placeholder = sampleBlocked.store "a" :=
      Store.ensure_of_contains htaken
    rw [hafter, hsame] at hrequested
    exact hnot hrequested

end Sample

end Scenario

end ClusterRegistration
