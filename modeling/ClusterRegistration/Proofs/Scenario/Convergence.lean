import ClusterRegistration.Proofs.Registration.Issue
import ClusterRegistration.Proofs.Registration.Publication
import ClusterRegistration.Proofs.Scenario.Faults

/-!
This module contains attempts at a registration that are repeated until the cluster is registered, and
after that.
-/

namespace ClusterRegistration

open Registration

namespace Scenario

def registerTimes (c : Config) : Nat → Run (List (Except Registration.Error Unit))
  | 0 => pure []
  | n + 1 => do
    let r ← register .stores c Deadline.never
    let rs ← registerTimes c n
    return r :: rs

theorem registerTimes_succ (c : Config) (n : Nat) (s : Scenario) :
    registerTimes c (n + 1) s =
      ((register .stores c Deadline.never s).1 ::
          (registerTimes c n (register .stores c Deadline.never s).2).1,
        (registerTimes c n (register .stores c Deadline.never s).2).2) :=
  rfl

theorem registerTimes_of_account {files : FileTree} {c : Config} {host source destination : String}
    {s : Scenario} (hquiet : s.Quiet files)
    (h : c.Connected (files.read c.source.kubeconfig) (s.clustersAt c.target) host source destination)
    (haccount : (s.store source).objects.contains c.identity.accountKey = true) (n : Nat) :
    (registerTimes c n s).2.Quiet files ∧
      (registerTimes c n s).1 =
        List.replicate n
          (c.prospect (files.read c.source.kubeconfig) (s.clustersAt c.target)).result ∧
      (registerTimes c n s).2.clustersAt c.target =
        if n = 0 then s.clustersAt c.target
        else c.after (files.read c.source.kubeconfig) (s.clustersAt c.target) := by
  -- On the number of attempts. The account stays, which is all that the next one needs.
  induction n generalizing s with
  | zero => exact ⟨hquiet, rfl, rfl⟩
  | succ n ih =>
    obtain ⟨hquiet', hresult, hafter⟩ := register_of_quiet hquiet c
    obtain ⟨hstable, hsame⟩ := Config.after_after_of_account h haccount
    change _ = c.after (files.read c.source.kubeconfig) (s.clustersAt c.target) at hafter
    have hconnected := Config.connected_applyAll h
      (c.prospect (files.read c.source.kubeconfig) (s.clustersAt c.target)).writes
    change c.Connected _ (c.after (files.read c.source.kubeconfig) (s.clustersAt c.target)) _ _ _
      at hconnected
    rw [← hafter] at hconnected
    have haccount' : ((register .stores c Deadline.never s).2.store source).objects.contains
        c.identity.accountKey = true := by
      obtain ⟨j, hj⟩ := (OrderedMap.contains_iff _ _).mp haccount
      have hkept : ((c.after (files.read c.source.kubeconfig) (s.clustersAt c.target)).store
          source).objects.get? c.identity.accountKey = some j :=
        Clusters.get?_applyAll_of_some _ hj
      rw [← hafter] at hkept
      exact OrderedMap.contains_of_get? hkept
    obtain ⟨hlast, hresults, hclusters⟩ := ih hquiet' hconnected haccount'
    rw [registerTimes_succ]
    refine ⟨hlast, ?_, ?_⟩
    . rw [hresults, hresult, hafter, hsame, List.replicate_succ]
    . rw [hclusters, hafter, hstable, ite_self, if_neg (Nat.succ_ne_zero n)]

/--
Nothing goes wrong, both ends are connected, and nothing that an attempt creates after the account
exists yet.
-/
structure Ready (c : Config) (s : Scenario) (host source destination : String) : Prop where
  hooks : s.hooks = []
  faults : s.faults = []
  notSelf : c.isSelfRegistration = false
  ofHost : resolveHost c.source (s.files.read c.source.kubeconfig) = .ok host
  ofSource : s.storeOf? c.source = some source
  ofDestination : s.storeOf? c.destination = some destination
  reachable : (s.store source).Reachable
  unbound : c.identity.Unbound (s.store source)
  unrequested : (s.store source).objects.contains c.identity.placeholderKey = false
  secretFree : (s.store destination).objects.contains
    (Store.Key.of .secret c.publication.item) = false
  clientConfigFree : (s.store destination).objects.contains
    (Store.Key.of .clientConfig c.publication.item) = false
  apart : source ≠ destination ∨ Store.Key.of .secret c.publication.item ≠ c.identity.placeholderKey

section Ready

variable {c : Config} {s : Scenario} {host source destination : String}

theorem quiet_of_ready (h : Ready c s host source destination) : s.Quiet s.files := by
  refine ⟨h.hooks, ?_, rfl⟩
  rw [h.faults]
  intro r hr
  cases hr

theorem connected_of_ready (h : Ready c s host source destination) :
    c.Connected (s.files.read c.source.kubeconfig) (s.clustersAt c.target) host source
      destination :=
  Config.connected_of_host rfl h.notSelf h.ofHost h.ofSource h.ofDestination

theorem prospect_of_ready (h : Ready c s host source destination) :
    c.prospect (s.files.read c.source.kubeconfig) (s.clustersAt c.target) =
      c.advanced host (s.store source) :=
  (connected_of_ready h).ofProspect _ rfl

theorem store_of_clustersAt_apply {x : Write} {s' : Scenario}
    (h : s'.clustersAt c.target = (s.clustersAt c.target).apply x) {name : String}
    (hname : (s.clustersAt c.target).storeAt? x.side = some name) (other : String) :
    s'.store other = if other = name then (s.store name).ensure x.input else s.store other := by
  have hstore : s'.store other = ((s.clustersAt c.target).apply x).store other :=
    congrArg (fun w => w.store other) h
  rw [hstore]
  split
  . next hother =>
    rw [hother]
    exact Clusters.store_apply_self hname
  . next hother => exact Clusters.store_apply_of_ne hname hother

theorem storeOf?_of_clustersAt_apply {x : Write} {s' : Scenario}
    (h : s'.clustersAt c.target = (s.clustersAt c.target).apply x) : s'.storeOf? = s.storeOf? := by
  have hview : (s'.clustersAt c.target).storeOf? = (s.clustersAt c.target).storeOf? := by
    rw [h, Clusters.storeOf?_apply]
  exact hview

theorem registerTimes_of_waiting (h : Ready c s host source destination)
    (haccount : (s.store source).objects.contains c.identity.accountKey = true) (n : Nat) :
    (registerTimes c n s).2.Quiet s.files ∧
      (registerTimes c n s).1 = List.replicate n
        (.error (.noCredential c.identity.serviceAccount c.identity.ns)) ∧
      (registerTimes c n s).2.clustersAt c.target =
        if n = 0 then s.clustersAt c.target
        else (s.clustersAt c.target).apply c.identity.placeholderWrite := by
  have hprospect : c.prospect (s.files.read c.source.kubeconfig) (s.clustersAt c.target) =
      ⟨.error (.noCredential c.identity.serviceAccount c.identity.ns),
        [c.identity.placeholderWrite]⟩ := by
    rw [prospect_of_ready h]
    unfold Config.advanced
    rw [Identity.prospect_of_unbound h.reachable h.unbound haccount]
    rfl
  obtain ⟨hquiet, hresults, hclusters⟩ :=
    registerTimes_of_account (quiet_of_ready h) (connected_of_ready h) haccount n
  unfold Config.after at hclusters
  rw [hprospect] at hresults hclusters
  exact ⟨hquiet, hresults, hclusters⟩

theorem register_of_missing (h : Ready c s host source destination)
    (hmissing : (s.store source).objects.contains c.identity.accountKey = false) :
    (register .stores c Deadline.never s).2.Quiet s.files ∧
      (register .stores c Deadline.never s).1 =
        .error (.identityNotReady c.identity.serviceAccount c.identity.ns) ∧
      (register .stores c Deadline.never s).2.clustersAt c.target =
        (s.clustersAt c.target).apply c.identity.accountWrite := by
  have hprospect : c.prospect (s.files.read c.source.kubeconfig) (s.clustersAt c.target) =
      ⟨.error (.identityNotReady c.identity.serviceAccount c.identity.ns),
        [c.identity.accountWrite]⟩ := by
    rw [prospect_of_ready h]
    unfold Config.advanced
    rw [Identity.prospect_of_missing hmissing]
    rfl
  obtain ⟨hquiet, hresult, hclusters⟩ := register_of_quiet (quiet_of_ready h) c
  rw [hprospect] at hresult hclusters
  exact ⟨hquiet, hresult, hclusters⟩

theorem ready_of_account {s' : Scenario} (h : Ready c s host source destination)
    (hquiet : s'.Quiet s.files)
    (hclusters : s'.clustersAt c.target =
      (s.clustersAt c.target).apply c.identity.accountWrite) :
    Ready c s' host source destination := by
  have hstore (name : String) : s'.store name =
      if name = source then (s.store source).ensure c.identity.accountInput else s.store name :=
    store_of_clustersAt_apply hclusters h.ofSource name
  have hstoreOf := storeOf?_of_clustersAt_apply hclusters
  have hsource : s'.store source = (s.store source).ensure c.identity.accountInput := by
    rw [hstore, if_pos rfl]
  -- The destination may be the source itself, in which nothing but the account is new.
  have hcontains {key : Store.Key} (hkey : key ≠ c.identity.accountKey)
      (hfree : (s.store destination).objects.contains key = false) :
      (s'.store destination).objects.contains key = false := by
    rw [hstore]
    split
    . next hsame =>
      rw [← hsame, Store.contains_ensure_of_ne _ c.identity.accountInput hkey, hfree]
    . exact hfree
  constructor
  case hooks => exact hquiet.hooks
  case faults =>
    rw [List.eq_nil_iff_forall_not_mem]
    exact hquiet.faults
  case notSelf => exact h.notSelf
  case ofHost =>
    rw [hquiet.files]
    exact h.ofHost
  case ofSource =>
    rw [hstoreOf]
    exact h.ofSource
  case ofDestination =>
    rw [hstoreOf]
    exact h.ofDestination
  case reachable =>
    rw [hsource]
    exact h.reachable.ensure c.identity.accountInput trivial
  case unbound =>
    rw [hsource]
    exact Identity.unbound_ensure_accountInput h.unbound
  case unrequested =>
    rw [hsource, Identity.contains_placeholderKey_ensure_accountInput]
    exact h.unrequested
  case secretFree =>
    apply hcontains _ h.secretFree
    exact Store.key_ne (by decide) _ _
  case clientConfigFree =>
    apply hcontains _ h.clientConfigFree
    exact Store.key_ne (by decide) _ _
  case apart => exact h.apart

theorem contains_accountKey_of_account {s' : Scenario} (h : Ready c s host source destination)
    (hclusters : s'.clustersAt c.target =
      (s.clustersAt c.target).apply c.identity.accountWrite) :
    (s'.store source).objects.contains c.identity.accountKey = true := by
  rw [store_of_clustersAt_apply hclusters h.ofSource, if_pos rfl]
  exact Store.contains_ensure_self _ c.identity.accountInput

def early (c : Config) (s : Store) : List (Except Registration.Error Unit) :=
  if s.objects.contains c.identity.accountKey then []
  else [.error (.identityNotReady c.identity.serviceAccount c.identity.ns)]

def waiting (c : Config) : Except Registration.Error Unit :=
  .error (.noCredential c.identity.serviceAccount c.identity.ns)

theorem registerTimes_results (h : Ready c s host source destination) (n : Nat) :
    (registerTimes c n s).1 =
      (early c (s.store source) ++ List.replicate n (waiting c)).take n := by
  unfold early waiting
  cases haccount : (s.store source).objects.contains c.identity.accountKey with
  | true =>
    obtain ⟨-, hresults, -⟩ := registerTimes_of_waiting h haccount n
    rw [hresults, if_pos rfl, List.nil_append, List.take_replicate, Nat.min_self]
  | false =>
    cases n with
    | zero => rfl
    | succ n =>
      obtain ⟨hquiet, hresult, hclusters⟩ := register_of_missing h haccount
      have hready := ready_of_account h hquiet hclusters
      have haccount' := contains_accountKey_of_account h hclusters
      obtain ⟨-, hresults, -⟩ := registerTimes_of_waiting hready haccount' n
      rw [registerTimes_succ, hresult, hresults, if_neg Bool.false_ne_true]
      rw [List.singleton_append, List.take_succ_cons, List.take_replicate]
      rw [Nat.min_eq_left (Nat.le_succ n)]

theorem registerTimes_requested (h : Ready c s host source destination) {n : Nat}
    (hn : (early c (s.store source)).length < n) :
    (registerTimes c n s).2.Quiet s.files ∧
      (registerTimes c n s).2.storeOf? = s.storeOf? ∧
      ∀ name, (registerTimes c n s).2.store name =
        if name = source then c.identity.requested (s.store source) else s.store name := by
  unfold early at hn
  cases haccount : (s.store source).objects.contains c.identity.accountKey with
  | true =>
    rw [haccount, if_pos rfl, List.length_nil] at hn
    obtain ⟨hquiet, -, hclusters⟩ := registerTimes_of_waiting h haccount n
    rw [if_neg (Nat.pos_iff_ne_zero.mp hn)] at hclusters
    have hensured : (s.store source).ensure c.identity.accountInput = s.store source :=
      Store.ensure_of_contains haccount
    refine ⟨hquiet, storeOf?_of_clustersAt_apply hclusters, ?_⟩
    intro name
    rw [store_of_clustersAt_apply hclusters h.ofSource name]
    unfold Identity.requested
    rw [hensured]
    rfl
  | false =>
    rw [haccount, if_neg Bool.false_ne_true, List.length_singleton] at hn
    -- One attempt creates the account, and one more asks for the token.
    obtain ⟨n, rfl⟩ : ∃ m, n = m + 1 + 1 := ⟨n - 2, by omega⟩
    obtain ⟨hquiet, -, hclusters⟩ := register_of_missing h haccount
    have hready := ready_of_account h hquiet hclusters
    have hstore := store_of_clustersAt_apply hclusters h.ofSource
    have haccount' := contains_accountKey_of_account h hclusters
    obtain ⟨hquiet', -, hclusters'⟩ := registerTimes_of_waiting hready haccount' (n + 1)
    rw [if_neg (Nat.succ_ne_zero n)] at hclusters'
    rw [hquiet.files] at hquiet'
    rw [registerTimes_succ]
    refine ⟨hquiet', ?_, ?_⟩
    . rw [storeOf?_of_clustersAt_apply hclusters', storeOf?_of_clustersAt_apply hclusters]
    . intro name
      rw [store_of_clustersAt_apply hclusters' hready.ofSource name, hstore source, if_pos rfl]
      by_cases hname : name = source
      . rw [if_pos hname, if_pos hname]
        rfl
      . rw [if_neg hname, if_neg hname, hstore, if_neg hname]

structure Settled (c : Config) (s : Scenario) (destination : String) (descriptor : Kubeconfig) :
    Prop where
  results : ∀ n, (registerTimes c n s).1 = List.replicate n (.ok ())
  stores : ∀ n name, (registerTimes c (n + 1) s).2.store name =
    if name = destination then c.publication.applied descriptor (s.store destination)
    else s.store name
  secret : ∃ secret : Object .secret,
    (c.publication.applied descriptor (s.store destination)).get .secret c.publication.item =
      .ok secret ∧
    (SecretHeader.data secret.header).get? kubeconfigKey =
      some (base64Text (Text.Utf8.encode descriptor.toYaml))
  clientConfig : ∃ record : Object .clientConfig,
    (c.publication.applied descriptor (s.store destination)).get .clientConfig c.publication.item =
      .ok record ∧
    record.spec = ClientConfigSpec.forSecret c.publication.name

theorem settled_of_advanced {files : FileTree} {descriptor : Kubeconfig} (hquiet : s.Quiet files)
    (h : c.Connected (files.read c.source.kubeconfig) (s.clustersAt c.target) host source destination)
    (haccount : (s.store source).objects.contains c.identity.accountKey = true)
    (hadvanced : c.advanced host (s.store source) = ⟨.ok (), c.publication.writes descriptor⟩)
    (hsecret : (s.store destination).objects.contains
      (Store.Key.of .secret c.publication.item) = false)
    (hclientConfig : (s.store destination).objects.contains
      (Store.Key.of .clientConfig c.publication.item) = false) :
    Settled c s destination descriptor := by
  have hprospect : c.prospect (files.read c.source.kubeconfig) (s.clustersAt c.target) =
      ⟨.ok (), c.publication.writes descriptor⟩ := by
    rw [h.ofProspect _ rfl]
    exact hadvanced
  constructor
  case results =>
    intro n
    obtain ⟨-, hresults, -⟩ := registerTimes_of_account hquiet h haccount n
    rw [hresults, hprospect]
  case stores =>
    intro n name
    obtain ⟨-, -, hclusters⟩ := registerTimes_of_account hquiet h haccount (n + 1)
    rw [if_neg (Nat.succ_ne_zero n), Config.after, hprospect] at hclusters
    have hstore : (registerTimes c (n + 1) s).2.store name =
        ((s.clustersAt c.target).applyAll (c.publication.writes descriptor)).store name :=
      congrArg (fun w => w.store name) hclusters
    rw [hstore]
    split
    . next hname =>
      rw [hname]
      exact c.publication.store_applyAll_writes h.ofDestination descriptor
    . next hname => exact c.publication.store_applyAll_writes_of_ne h.ofDestination descriptor hname
  case secret =>
    refine ⟨_, Publication.get_secret_applied descriptor hsecret, ?_⟩
    apply OrderedMap.get?_insert_self
  case clientConfig =>
    obtain ⟨version, hrecord⟩ := Publication.get_clientConfig_applied descriptor hclientConfig
    exact ⟨_, hrecord, rfl⟩

theorem apply_replace {store : Store} {o o' : Object .secret}
    (h : (s.store source).replace o = .ok (o', store)) :
    ((Edit.replace source o).apply s).2 = s.putStore source store := by
  simp only [Edit.apply, change, stateM_bind, stateM_get, h]
  rfl

theorem contains_of_issued {s' : Scenario} {secret : Object .secret}
    (hstore : ∀ name, s'.store name =
      if name = source then c.identity.requested (s.store source) else s.store name)
    {key : Store.Key} (haccount : key ≠ c.identity.accountKey)
    (hplaceholder : source ≠ destination ∨ key ≠ c.identity.placeholderKey)
    (hfree : (s.store destination).objects.contains key = false) :
    ((s'.putStore source (c.identity.issued (s.store source) secret)).store
      destination).objects.contains key = false := by
  by_cases hsame : destination = source
  . have hkey : key ≠ c.identity.placeholderKey :=
      hplaceholder.resolve_left (fun hne => hne hsame.symm)
    rw [hsame, store_putStore_self, Identity.contains_issued_of_ne hkey haccount, ← hsame, hfree]
  . rw [store_putStore_of_ne s' hsame, hstore, if_neg hsame, hfree]

theorem settled_of_issues (h : Ready c s host source destination) {n : Nat}
    (hn : (early c (s.store source)).length < n) {secret : Object .secret} {token : String}
    {ca : Bytes} (hissues : c.identity.Issues secret token ca) :
    Settled c ((Edit.replace source secret).apply (registerTimes c n s).2).2 destination
      (descriptor token ca host c.publication.name) := by
  obtain ⟨hquiet, hstoreOf, hstore⟩ := registerTimes_requested h hn
  generalize (registerTimes c n s).2 = s' at hquiet hstoreOf hstore
  -- The placeholder has been asked for by now, so there is something to replace.
  have hreplaced : (s'.store source).replace secret =
      .ok (Store.replaced secret ((c.identity.requested (s.store source)).version + 1),
        c.identity.issued (s.store source) secret) := by
    rw [hstore, if_pos rfl]
    exact Identity.replace_requested hissues
  rw [apply_replace hreplaced]
  have hsource : (s'.putStore source (c.identity.issued (s.store source) secret)).store source =
      c.identity.issued (s.store source) secret := by
    apply store_putStore_self
  have hconnected : c.Connected (s.files.read c.source.kubeconfig)
      ((s'.putStore source (c.identity.issued (s.store source) secret)).clustersAt c.target) host
        source destination := by
    apply Config.connected_of_host rfl h.notSelf h.ofHost
    . show s'.storeOf? c.source = some source
      rw [hstoreOf]
      exact h.ofSource
    . show s'.storeOf? c.destination = some destination
      rw [hstoreOf]
      exact h.ofDestination
  apply settled_of_advanced (undisturbed_putStore hquiet _ _) hconnected
  . rw [hsource]
    apply Identity.contains_accountKey_issued
  . rw [hsource]
    exact Config.advanced_issued host h.reachable h.unbound hissues
  . exact contains_of_issued hstore (Store.key_ne (by decide) _ _) h.apart h.secretFree
  . exact contains_of_issued hstore (Store.key_ne (by decide) _ _)
      (.inr (Store.key_ne (by decide) _ _)) h.clientConfigFree

/--
Attempts converge: one that creates the account if there is none, then attempts that wait for the token
and change nothing but for its request, and once there is a token only attempts that succeed.
-/
theorem registerTimes_converges (h : Ready c s host source destination) :
    (∀ n, (registerTimes c n s).1 =
      (early c (s.store source) ++ List.replicate n (waiting c)).take n) ∧
    ∀ n, (early c (s.store source)).length < n →
      (∀ name, (registerTimes c n s).2.store name =
        if name = source then c.identity.requested (s.store source) else s.store name) ∧
      ∀ secret token ca, c.identity.Issues secret token ca →
        (∃ secret', ((registerTimes c n s).2.store source).replace secret =
          .ok (secret', ((Edit.replace source secret).apply (registerTimes c n s).2).2.store source)) ∧
        Settled c ((Edit.replace source secret).apply (registerTimes c n s).2).2 destination
          (descriptor token ca host c.publication.name) := by
  refine ⟨registerTimes_results h, ?_⟩
  intro n hn
  obtain ⟨-, -, hstore⟩ := registerTimes_requested h hn
  refine ⟨hstore, ?_⟩
  intro secret token ca hissues
  have hreplaced : ((registerTimes c n s).2.store source).replace secret =
      .ok (Store.replaced secret ((c.identity.requested (s.store source)).version + 1),
        c.identity.issued (s.store source) secret) := by
    rw [hstore, if_pos rfl]
    exact Identity.replace_requested hissues
  refine ⟨?_, settled_of_issues h hn hissues⟩
  rw [apply_replace hreplaced, store_putStore_self]
  exact ⟨_, hreplaced⟩

end Ready

section Sample

def sample : Config :=
  ⟨⟨⟨"/etc/kube/source.yaml"⟩, "source"⟩, ⟨⟨"destination.yaml"⟩, "destination"⟩, ⟨"default", "registrar"⟩,
    ⟨"clusters", "source"⟩⟩

def sampleKubeconfig : String :=
  "apiVersion: v1\nkind: Config\n" ++
  "clusters:\n- name: s\n  cluster:\n    server: https://source\n" ++
  "contexts:\n- name: source\n  context:\n    cluster: s\n    user: s\n" ++
  "users:\n- name: s\n  user:\n    token: s\n"

def sampleStart : Scenario :=
  start [(sample.source, "a"), (sample.destination, "b")]
    ((FileTree.below ["work"]).insert sample.source.kubeconfig
      (.file (Text.Utf8.encode sampleKubeconfig)))

theorem resolveHost_sample :
    resolveHost sample.source (sampleStart.files.read sample.source.kubeconfig) =
      .ok "https://source" := by
  have hserver : (resolveHost sample.source
      (sampleStart.files.read sample.source.kubeconfig)).toOption = some "https://source" := by
    decide +kernel
  cases hhost : resolveHost sample.source (sampleStart.files.read sample.source.kubeconfig) with
  | error e =>
    rw [hhost] at hserver
    cases hserver
  | ok server =>
    rw [hhost] at hserver
    cases hserver
    rfl

theorem storeOf?_sample : sampleStart.storeOf? sample.source = some "a" ∧
    sampleStart.storeOf? sample.destination = some "b" := by
  decide +kernel

def sampleSecret : Object .secret :=
  let data := OrderedMap.ofList
    [(Identity.tokenKey, base64Text (Text.Utf8.encode "t")), (Identity.caKey, base64Text [1, 2])]
  let header : SecretHeader := ⟨data, SecretHeader.serviceAccountToken⟩
  { Store.created sample.identity.placeholder 2 with header := header }

def sampleIssued (token : String) (ca : Bytes) : Scenario :=
  sampleStart.putStore "a" (sample.identity.issued Store.empty (sample.identity.filled token ca))

theorem registerTimes_converges_of_sample :
    Ready sample sampleStart "https://source" "a" "b" ∧
      sample.identity.Issues sampleSecret "t" [1, 2] ∧
      (registerTimes sample 3 sampleStart).1 =
        [.error (.identityNotReady "registrar" "default"), waiting sample, waiting sample] ∧
      Settled sample
        ((Edit.replace "a" sampleSecret).apply (registerTimes sample 3 sampleStart).2).2 "b"
        (descriptor "t" [1, 2] "https://source" "source") := by
  have hstore (name : String) (h : name = "a" ∨ name = "b") :
      sampleStart.store name = Store.empty := by
    rcases h with rfl | rfl
    . rfl
    . rfl
  have hready : Ready sample sampleStart "https://source" "a" "b" := by
    constructor
    case hooks => rfl
    case faults => rfl
    case notSelf => decide +kernel
    case ofHost => exact resolveHost_sample
    case ofSource => decide +kernel
    case ofDestination => decide +kernel
    case reachable =>
      rw [hstore "a" (.inl rfl)]
      exact Store.Reachable.empty
    case unbound =>
      rw [hstore "a" (.inl rfl)]
      exact sample.identity.unbound_empty
    case unrequested =>
      rw [hstore "a" (.inl rfl)]
      rfl
    case secretFree =>
      rw [hstore "b" (.inr rfl)]
      rfl
    case clientConfigFree =>
      rw [hstore "b" (.inr rfl)]
      rfl
    case apart => exact .inl (by decide)
  have hissues : sample.identity.Issues sampleSecret "t" [1, 2] :=
    sample.identity.issues_filled rfl (List.cons_ne_nil _ _)
  obtain ⟨hresults, hsettled⟩ := registerTimes_converges hready
  rw [hstore "a" (.inl rfl)] at hresults hsettled
  refine ⟨hready, hissues, hresults 3, ?_⟩
  exact ((hsettled 3 (by decide)).2 sampleSecret "t" [1, 2] hissues).2

end Sample

end Scenario

end ClusterRegistration
