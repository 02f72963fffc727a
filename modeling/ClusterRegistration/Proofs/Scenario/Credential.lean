import ClusterRegistration.Proofs.Scenario.Pending

namespace ClusterRegistration

open Registration

namespace Store

variable {k : Kind} {s : Store}

theorem Reachable.name_of_get (h : s.Reachable) (hk : k.IsAlone) {item : ItemName} {o : Object k}
    (hget : s.get k item = .ok o) : o.metadata.name = item.name := by
  unfold get at hget
  split at hget
  . next j hj =>
    obtain ⟨k', o', hfits, hkey, rfl⟩ := h.holds hj
    obtain rfl := hk k' (congrArg Key.definition hkey).symm
    rw [asKind_stored hfits] at hget
    cases hget
    exact (congrArg Key.name hkey).symm
  . cases hget

end Store

namespace Registration.Identity

variable {i : Identity} {s : Store}

/--
A secret in the namespace of the account that the token controller populates, or has populated, for it.
-/
structure Binds (i : Identity) (s : Store) (name : String) (secret : Object .secret) : Prop where
  found : s.get .secret ⟨name, i.ns⟩ = .ok secret
  type : SecretHeader.type secret.header = SecretHeader.serviceAccountToken
  annotation : secret.metadata.annotations.get? SecretHeader.serviceAccountAnnotation =
    some i.serviceAccount

structure BindsFirst (i : Identity) (s : Store) (name : String) (secret : Object .secret) : Prop
    extends i.Binds s name secret where
  least : ∀ name' secret', i.Binds s name' secret' → name ≤ name'

def Lacking (i : Identity) (s : Store) : Prop :=
  (∀ name secret, ¬ i.Binds s name secret) ∧ s.objects.contains i.placeholderKey = false

def Populates (name : String) (secret : Object .secret) (c : Credential) : Prop :=
  ∃ token, (SecretHeader.data secret.header).get? "token" = some token ∧ token ≠ "" ∧
    c = ⟨name, token, ((SecretHeader.data secret.header).get? "ca.crt").getD ""⟩

theorem binds_iff {name : String} {secret : Object .secret} :
    i.Binds s name secret ↔ s.get .secret ⟨name, i.ns⟩ = .ok secret ∧ i.isBoundToken secret = true := by
  rw [isBoundToken_iff]
  exact ⟨fun h => ⟨h.found, h.type, h.annotation⟩, fun h => ⟨h.1, h.2.1, h.2.2⟩⟩

theorem bindsFirst_iff {name : String} {secret : Object .secret} :
    i.BindsFirst s name secret ↔ i.Binds s name secret ∧
      ∀ name' secret', i.Binds s name' secret' → name ≤ name' :=
  ⟨fun h => ⟨h.toBinds, h.least⟩, fun h => ⟨h.1, h.2⟩⟩

theorem bindsFirst_congr {s' : Store} (h : ∀ name secret, i.Binds s' name secret ↔ i.Binds s name secret)
    {name : String} {secret : Object .secret} :
    i.BindsFirst s' name secret ↔ i.BindsFirst s name secret := by
  simp only [bindsFirst_iff, h]

theorem exists_binds_ensure_placeholder (h : s.objects.contains i.placeholderKey = false) :
    ∃ secret, i.Binds (s.ensure i.placeholder) (i.serviceAccount ++ "-secret") secret ∧
      SecretHeader.data secret.header = OrderedMap.empty :=
  ⟨Store.created i.placeholder (s.version + 1),
    binds_iff.mpr ⟨Store.get_ensure_self trivial h, i.isBoundToken_placeholder _⟩, rfl⟩

theorem credentialOf?_eq_some_iff {secret : Object .secret} {c : Credential} :
    credentialOf? secret = some c ↔ Populates secret.metadata.name secret c := by
  unfold credentialOf? Populates tokenKey caKey
  dsimp only
  cases (SecretHeader.data secret.header).get? "token" with
  | none => simp
  | some token =>
    by_cases hempty : token = ""
    . simp [hempty]
    . have hfilled : token.isEmpty = false := by
        rw [Bool.eq_false_iff, ne_eq, String.isEmpty_iff]
        exact hempty
      show (if token.isEmpty then none else some _) = some c ↔ _
      rw [hfilled]
      constructor
      . intro h
        cases h
        exact ⟨token, rfl, hempty, rfl⟩
      . rintro ⟨token', htoken, -, rfl⟩
        cases htoken
        rfl

section Looking

variable (hs : s.Reachable)

include hs

theorem exists_bound (i : Identity) : ∃ found, i.bound s = .ok found ∧
    (∀ secret, found = some secret ↔ ∃ name, i.BindsFirst s name secret) ∧
      (found = none ↔ ∀ name secret, ¬ i.Binds s name secret) := by
  obtain ⟨l, hl, hmem⟩ := hs.exists_list Kind.isAlone_secret rfl i.ns
  refine ⟨l.items.find? i.isBoundToken, ?_, fun secret => ?_, ?_⟩
  . unfold bound Store.firstIn
    rw [hl]
    rfl
  . rw [Store.find?_items_iff rfl hl]
    simp only [bindsFirst_iff, binds_iff, and_imp, and_assoc]
  . simp only [List.find?_eq_none, hmem, binds_iff, not_and]
    exact ⟨fun h name secret hget => h secret ⟨name, hget⟩, fun h secret ⟨name, hget⟩ => h name secret hget⟩

theorem located_of_reachable (i : Identity) :
    (∀ c, (i.located s).result = .ok c ↔
      ∃ name secret, i.BindsFirst s name secret ∧ Populates name secret c) ∧
    ((∀ c, (i.located s).result ≠ .ok c) →
      (i.located s).result = .error (.noCredential i.serviceAccount i.ns)) ∧
    ((∀ name secret, ¬ i.Binds s name secret) → (i.located s).writes = [i.placeholderWrite]) ∧
    ∀ name secret, i.Binds s name secret → (i.located s).writes = [] := by
  obtain ⟨found, hbound, hfirst, hnone⟩ := exists_bound hs i
  unfold located
  rw [hbound]
  cases found with
  | none =>
    have hunbound := hnone.mp rfl
    refine ⟨fun c => ?_, fun _ => rfl, fun _ => rfl, ?_⟩
    . refine iff_of_false nofun ?_
      rintro ⟨name, secret, hbinds, -⟩
      exact hunbound name secret hbinds.toBinds
    . exact fun name secret hbinds => absurd hbinds (hunbound name secret)
  | some secret =>
    obtain ⟨name, hbinds⟩ := (hfirst secret).mp rfl
    have hname : secret.metadata.name = name := hs.name_of_get Kind.isAlone_secret hbinds.found
    have hcredential : ∀ c, credentialOf? secret = some c ↔
        ∃ name secret, i.BindsFirst s name secret ∧ Populates name secret c := by
      intro c
      rw [credentialOf?_eq_some_iff, hname]
      constructor
      . exact fun h => ⟨name, secret, hbinds, h⟩
      -- Two first ones have the same name, and so are the same secret.
      . rintro ⟨name', secret', hbinds', h⟩
        obtain rfl : name' = name := String.le_antisymm (hbinds'.least _ _ hbinds.toBinds)
          (hbinds.least _ _ hbinds'.toBinds)
        obtain rfl := Option.some.inj ((hfirst secret').mpr ⟨name', hbinds'⟩)
        exact h
    simp only [← hcredential]
    have hsome : ¬ ∀ name secret, ¬ i.Binds s name secret :=
      fun h => h name secret hbinds.toBinds
    cases hc : credentialOf? secret with
    | some credential =>
      refine ⟨fun c => by simp, fun h => absurd rfl (h credential), fun h => absurd h hsome,
        fun _ _ _ => rfl⟩
    | none =>
      exact ⟨fun c => iff_of_false nofun nofun, fun _ => rfl, fun h => absurd h hsome, fun _ _ _ => rfl⟩

end Looking

end Registration.Identity

namespace Registration

section Answered

variable {σ α : Type} (view : σ → Clusters) (inv : σ → Prop) {clock : Clock (StateM σ)}
  {deadline : Deadline} {perform : (a : Action) → StateM σ (Option a.Outcome)}

theorem run_of_answered
    (hnow : ∀ s, inv s → (clock.now s).2 = s ∧ deadline.isOver (clock.now s).1 = false)
    (hperform : ∀ a s, inv s → inv (perform a s).2 ∧
      (perform a s).1 = some ((view s).answer a).1 ∧ view (perform a s).2 = ((view s).answer a).2)
    {post : Except Error α → Clusters → Prop} {script : Script α} {s : σ} (hs : inv s)
    (h : script.Always .none post (view s)) :
    post (script.run clock deadline perform s).1 (view (script.run clock deadline perform s).2) := by
  -- On the script. `inv` says of each state that its call is answered in time.
  induction script generalizing s with
  | done result => exact h
  | act a next ih =>
    obtain ⟨hinv, hanswer, hview⟩ := hperform a s hs
    obtain ⟨hsame, hover⟩ := hnow s hs
    have hguard : deadline.guard clock a.operation (perform a) s =
        (.ok ((view s).answer a).1, (perform a s).2) := by
      simp only [Deadline.guard, stateM_bind, hsame, hover, Bool.false_eq_true, ↓reduceIte, hanswer]
      rfl
    rw [Carrier.run_act_of_ok hguard]
    apply ih _ hinv
    rw [hview]
    exact h.1

end Answered

end Registration

namespace Scenario

structure Calm (s : Scenario) (name : String) (deadline : Deadline) : Prop where
  hooks : s.hooks = []
  faults : s.faults = []
  inTime : deadline.isOver s.now = false
  reachable : (s.store name).Reachable

section Calm

variable {s : Scenario} {name : String} {deadline : Deadline} {files : FileTree}

theorem now_ask (h : s.hooks = []) (name : String) (r : Request) : (ask name r s).2.now = s.now := by
  rw [ask_eq]
  cases hannounced : (announce (callOf name r) (s.mention name)).1 with
  | none =>
    rw [call_of_none hannounced, askStore_eq, announce_eq (s := s.mention name) h]
    rfl
  | some f =>
    rw [call_of_some hannounced, announce_eq (s := s.mention name) h]
    rfl

theorem performOn_of_quiet (h : s.Quiet files) (name : String) (a : Action) :
    (performOn (ask name) a s).2.Quiet files ∧ (performOn (ask name) a s).2.now = s.now ∧
      (performOn (ask name) a s).1 = some ((s.clustersIn name).answer a).1 ∧
      (performOn (ask name) a s).2.clustersIn name = ((s.clustersIn name).answer a).2 := by
  obtain ⟨hinv, hcarried⟩ := performOn_carried h Deadline.never name a
  refine ⟨hinv, ?_, ?_⟩
  . cases a with
    | connect side t => rfl
    | ask side operation r =>
      rw [performOn_ask]
      exact now_ask h.hooks name r
  . rcases hcarried with hanswer | ⟨⟨-, hcut⟩ | ⟨e, he, -⟩, -⟩
    . exact hanswer
    . exact absurd hcut not_cut_of_quiet
    . exact absurd he (not_error_of_quiet e)

theorem followOn_of_calm {α : Type} {post : Except Registration.Error α → Clusters → Prop}
    {script : Script α} (h : s.Calm name deadline) (hscript : script.Always .none post (s.clustersIn name)) :
    post (followOn name deadline script s).1 ((followOn name deadline script s).2.clustersIn name) := by
  have hquiet : s.Quiet s.files := ⟨h.hooks, by simp [h.faults], rfl⟩
  rw [← clustersIn_mention name name s] at hscript
  refine run_of_answered (clustersIn name)
    (fun s' => s'.Quiet s.files ∧ deadline.isOver s'.now = false) ?_ ?_
    ⟨undisturbed_putStore hquiet name _, h.inTime⟩ hscript
  . rintro s' ⟨-, hover⟩
    exact ⟨rfl, hover⟩
  . rintro a s' ⟨hquiet', hover⟩
    obtain ⟨hinv, hnow, hanswer⟩ := performOn_of_quiet hquiet' name a
    refine ⟨⟨hinv, ?_⟩, hanswer⟩
    rw [hnow]
    exact hover

theorem followOn_locate_of_calm (h : s.Calm name deadline) (i : Identity) :
    (followOn name deadline i.locate s).1 = (i.located (s.store name)).result ∧
      (followOn name deadline i.locate s).2.clustersIn name =
        (s.clustersIn name).applyAll (i.located (s.store name)).writes := by
  have hharmless : Hazard.none.Harmless := fun _ => False.elim
  have hreaches := i.locate_reaches hharmless (rfl : (s.clustersIn name).storeAt? .source = some name)
  rcases followOn_of_calm h hreaches with hends | ⟨e, xs, -, hfailure, -⟩
  . exact hends
  . rcases hfailure with ⟨operation, source, -, he⟩ | ⟨operation, -, hcut⟩
    . exact he.elim
    . exact hcut.elim

theorem store_of_calm (h : s.Calm name deadline) (i : Identity) :
    let after := (followOn name deadline i.locate s).2
    (∀ other ≠ name, after.store other = s.store other) ∧
      (∀ n secret, i.Binds (s.store name) n secret → after.store name = s.store name) ∧
      ((∀ n secret, ¬ i.Binds (s.store name) n secret) →
        after.store name = (s.store name).ensure i.placeholder) := by
  intro after
  obtain ⟨-, -, hasks, hkeeps⟩ := Identity.located_of_reachable h.reachable i
  have hafter : ∀ other, after.store other =
      ((s.clustersIn name).applyAll (i.located (s.store name)).writes).store other :=
    fun other => congrArg (fun w => w.store other) (followOn_locate_of_calm h i).2
  have hat : (s.clustersIn name).storeAt? i.placeholderWrite.side = some name := rfl
  refine ⟨fun other hother => ?_, fun n secret hbinds => ?_, fun hunbound => ?_⟩
  . rw [hafter]
    by_cases hbound : ∃ n secret, i.Binds (s.store name) n secret
    . obtain ⟨n, secret, hbinds⟩ := hbound
      rw [hkeeps n secret hbinds]
      rfl
    . rw [hasks (fun n secret hbinds => hbound ⟨n, secret, hbinds⟩), Clusters.applyAll_cons]
      exact Clusters.store_apply_of_ne hat hother
  . rw [hafter, hkeeps n secret hbinds]
    rfl
  . rw [hafter, hasks hunbound, Clusters.applyAll_cons]
    exact Clusters.store_apply_self hat

theorem result_of_calm (h : s.Calm name deadline) (i : Identity) :
    (∀ c, (followOn name deadline i.locate s).1 = .ok c ↔
      ∃ n secret, i.BindsFirst (s.store name) n secret ∧ Identity.Populates n secret c) ∧
    ((∀ c, (followOn name deadline i.locate s).1 ≠ .ok c) →
      (followOn name deadline i.locate s).1 = .error (.noCredential i.serviceAccount i.ns)) := by
  rw [(followOn_locate_of_calm h i).1]
  obtain ⟨hcredential, hpending, -⟩ := Identity.located_of_reachable h.reachable i
  exact ⟨hcredential, hpending⟩

theorem result_congr {s' : Scenario} {name' : String} (h : s.Calm name deadline)
    (h' : s'.Calm name' deadline) {i : Identity}
    (hbinds : ∀ n secret, i.Binds (s'.store name') n secret ↔ i.Binds (s.store name) n secret) :
    (followOn name' deadline i.locate s').1 = (followOn name deadline i.locate s).1 := by
  obtain ⟨hcredential, hpending⟩ := result_of_calm h i
  obtain ⟨hcredential', hpending'⟩ := result_of_calm h' i
  simp only [Identity.bindsFirst_congr hbinds] at hcredential'
  by_cases hfound : ∃ c, (followOn name deadline i.locate s).1 = .ok c
  . obtain ⟨c, hc⟩ := hfound
    rw [hc]
    exact (hcredential' c).mpr ((hcredential c).mp hc)
  . have hnone : ∀ c, (followOn name deadline i.locate s).1 ≠ .ok c := fun c hc => hfound ⟨c, hc⟩
    rw [hpending hnone]
    exact hpending' (fun c hc => hnone c ((hcredential c).mpr ((hcredential' c).mp hc)))

/--
The law of credentials. Of the secrets in the namespace that the token controller populates for the account,
the first one decides: there is a credential exactly if it has a token, and it is the credential in this
secret. Without any such secret the one that asks for a token is created, unless its name is taken. Nothing
else is ever changed, and no other secrets matter.
-/
theorem credential_law (s : Scenario) (name : String) (deadline : Deadline) (i : Identity)
    (h : s.Calm name deadline) :
    let before := s.store name
    let located := followOn name deadline i.locate s
    let after := located.2.store name
    (∀ c, located.1 = .ok c ↔
      ∃ n secret, i.BindsFirst before n secret ∧ Identity.Populates n secret c) ∧
    (∀ c, located.1 = .ok c → after = before) ∧
    ((∀ c, located.1 ≠ .ok c) → located.1 = .error (.noCredential i.serviceAccount i.ns)) ∧
    (after ≠ before ↔ i.Lacking before) ∧
    (i.Lacking before →
      (∃ secret, i.Binds after (i.serviceAccount ++ "-secret") secret ∧
        (SecretHeader.data secret.header) = OrderedMap.empty) ∧
      ∀ key ≠ i.placeholderKey, after.objects.get? key = before.objects.get? key) ∧
    (∀ other ≠ name, located.2.store other = s.store other) ∧
    ∀ (s' : Scenario) (name' : String), s'.Calm name' deadline →
      (∀ n secret, i.Binds (s'.store name') n secret ↔ i.Binds before n secret) →
        (followOn name' deadline i.locate s').1 = located.1 := by
  intro before located after
  obtain ⟨hcredential, hpending⟩ := result_of_calm h i
  obtain ⟨hothers, hsame, hasked⟩ := store_of_calm h i
  have hcreated : i.Lacking before → after = before.ensure i.placeholder :=
    fun hlacking => hasked hlacking.1
  refine ⟨hcredential, fun c hc => ?_, hpending, ⟨fun hne => ?_, fun hlacking hsame' => ?_⟩,
    fun hlacking => ?_, hothers, fun s' name' h' hbinds => result_congr h h' hbinds⟩
  . obtain ⟨n, secret, hbinds, -⟩ := (hcredential c).mp hc
    exact hsame n secret hbinds.toBinds
  . have hunbound : ∀ n secret, ¬ i.Binds before n secret :=
      fun n secret hbinds => hne (hsame n secret hbinds)
    refine ⟨hunbound, Bool.eq_false_iff.mpr fun hkey => hne ?_⟩
    exact (hasked hunbound).trans (Store.ensure_of_contains hkey)
  . have hcontains := Store.contains_ensure_self before i.placeholder
    rw [← hcreated hlacking, hsame'] at hcontains
    exact Bool.false_ne_true (hlacking.2.symm.trans hcontains)
  . rw [hcreated hlacking]
    exact ⟨Identity.exists_binds_ensure_placeholder hlacking.2,
      fun key hkey => Store.get?_ensure_of_ne before i.placeholder hkey⟩

end Calm

section Sample

def sampleBound (item : ItemName) (token : String) : ObjectInput .secret :=
  let header : SecretHeader := ⟨OrderedMap.ofList [("token", token)], SecretHeader.serviceAccountToken⟩
  .new ((InputMeta.named item.name item.ns).annotate SecretHeader.serviceAccountAnnotation "robot") ()
    header

def sampleTokens : Store :=
  ((Store.empty.ensure (sampleBound ⟨"token-c", "apps"⟩ "Yw==")).ensure
    (sampleBound ⟨"token-a", "tools"⟩ "YQ==")).ensure (sampleBound ⟨"token-b", "apps"⟩ "Yg==")

def sampleReady : Scenario :=
  sampleFree.putStore "a" sampleTokens

theorem store_sampleReady : sampleReady.store "a" = sampleTokens :=
  store_putStore_self sampleFree "a" sampleTokens

theorem calm_sampleReady : sampleReady.Calm "a" .never where
  hooks := rfl
  faults := rfl
  inTime := rfl
  reachable := by
    rw [store_sampleReady]
    exact ((Store.Reachable.empty.ensure (sampleBound ⟨"token-c", "apps"⟩ "Yw==") trivial).ensure
      (sampleBound ⟨"token-a", "tools"⟩ "YQ==") trivial).ensure
        (sampleBound ⟨"token-b", "apps"⟩ "Yg==") trivial

theorem binds_sampleTokens :
    sampleRobot.Binds sampleTokens "token-b"
      (Store.created (sampleBound ⟨"token-b", "apps"⟩ "Yg==") 3) where
  found := by
    apply Store.get_ensure_self
    . trivial
    . rfl
  type := rfl
  annotation := rfl

theorem bindsFirst_sampleTokens :
    sampleRobot.BindsFirst sampleTokens "token-b"
      (Store.created (sampleBound ⟨"token-b", "apps"⟩ "Yg==") 3) where
  toBinds := binds_sampleTokens
  least := by
    intro name secret hbinds
    by_cases hb : name = "token-b"
    . exact hb ▸ String.le_refl _
    by_cases hc : name = "token-c"
    . rw [hc]
      decide
    -- There is no other secret in the namespace.
    have hfound : sampleTokens.get .secret ⟨name, "apps"⟩ = .ok secret := hbinds.found
    have hkey : ∀ other token, name ≠ other → Store.Key.of .secret ⟨name, "apps"⟩ ≠
        Store.inputKey (sampleBound ⟨other, "apps"⟩ token) :=
      fun _ _ hne h => hne (congrArg Store.Key.name h)
    have hns : Store.Key.of .secret ⟨name, "apps"⟩ ≠
        Store.inputKey (sampleBound ⟨"token-a", "tools"⟩ "YQ==") :=
      fun h => absurd (show "apps" = "tools" from congrArg Store.Key.ns h) (by decide)
    unfold sampleTokens at hfound
    rw [Store.get_ensure_of_ne _ _ (hkey _ _ hb), Store.get_ensure_of_ne _ _ hns,
      Store.get_ensure_of_ne _ _ (hkey _ _ hc)] at hfound
    cases hfound

theorem credential_law_of_sample :
    sampleReady.Calm "a" .never ∧
      (followOn "a" Deadline.never sampleRobot.locate sampleReady).1 = .ok ⟨"token-b", "Yg==", ""⟩ ∧
      (followOn "a" Deadline.never sampleRobot.locate sampleReady).2.store "a" = sampleTokens := by
  obtain ⟨hcredential, hsame, -⟩ := credential_law sampleReady "a" .never sampleRobot calm_sampleReady
  rw [store_sampleReady] at hcredential hsame
  have hissued : (followOn "a" Deadline.never sampleRobot.locate sampleReady).1 =
      .ok ⟨"token-b", "Yg==", ""⟩ :=
    (hcredential _).mpr ⟨_, _, bindsFirst_sampleTokens, "Yg==", rfl, by decide, rfl⟩
  exact ⟨calm_sampleReady, hissued, hsame _ hissued⟩

end Sample

end Scenario

end ClusterRegistration
