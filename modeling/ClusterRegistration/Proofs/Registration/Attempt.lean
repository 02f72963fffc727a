import ClusterRegistration.Proofs.Registration.Prospect
import ClusterRegistration.Registration.Attempt

namespace ClusterRegistration.Registration

namespace Identity

def accountName (i : Identity) : ItemName :=
  ⟨i.serviceAccount, i.ns⟩

def accountWrite (i : Identity) : Write :=
  ⟨.source, .serviceAccount, i.accountInput⟩

def placeholderWrite (i : Identity) : Write :=
  ⟨.source, .secret, i.placeholder⟩

def bound (i : Identity) (s : Store) : Except Store.Error (Option (Object .secret)) :=
  s.firstIn .secret (.inNamespace i.ns) i.isBoundToken

def ensured (i : Identity) (s : Store) : Prospect Unit :=
  match s.get .serviceAccount i.accountName with
  | .ok _ => ⟨.ok (), []⟩
  | .error e =>
    if e.isNotFound then ⟨.error (.identityNotReady i.serviceAccount i.ns), [i.accountWrite]⟩
    else .fail (.api "get serviceaccount" (.store e))

def located (i : Identity) (s : Store) : Prospect Credential :=
  match i.bound s with
  | .error e => .fail (.api "list secrets" (.store e))
  | .ok none => ⟨.error (.noCredential i.serviceAccount i.ns), [i.placeholderWrite]⟩
  | .ok (some secret) =>
    match credentialOf? secret with
    | some credential => ⟨.ok credential, []⟩
    | none => .fail (.noCredential i.serviceAccount i.ns)

theorem ensured_of_ok {i : Identity} {s : Store} {account : Object .serviceAccount}
    (h : s.get .serviceAccount i.accountName = .ok account) : i.ensured s = ⟨.ok (), []⟩ := by
  unfold ensured
  rw [h]

theorem ensured_of_isNotFound {i : Identity} {s : Store} {e : Store.Error}
    (h : s.get .serviceAccount i.accountName = .error e) (he : e.isNotFound = true) :
    i.ensured s = ⟨.error (.identityNotReady i.serviceAccount i.ns), [i.accountWrite]⟩ := by
  unfold ensured
  rw [h]
  exact if_pos he

theorem ensured_of_error {i : Identity} {s : Store} {e : Store.Error}
    (h : s.get .serviceAccount i.accountName = .error e) (he : e.isNotFound = false) :
    i.ensured s = .fail (.api "get serviceaccount" (.store e)) := by
  unfold ensured
  rw [h]
  apply if_neg
  rw [he]
  apply Bool.false_ne_true

theorem writes_ensured_of_ok {i : Identity} {s : Store} (h : (i.ensured s).result = .ok ()) :
    (i.ensured s).writes = [] := by
  cases haccount : s.get .serviceAccount i.accountName with
  | ok account => rw [ensured_of_ok haccount]
  | error e =>
    cases he : e.isNotFound with
    | true =>
      rw [ensured_of_isNotFound haccount he] at h
      cases h
    | false =>
      rw [ensured_of_error haccount he] at h
      cases h

theorem writes_located_of_ok {i : Identity} {s : Store} {credential : Credential}
    (h : (i.located s).result = .ok credential) : (i.located s).writes = [] := by
  simp only [located] at h ⊢
  split at h
  . cases h
  . cases h
  . split at h
    . rfl
    . cases h

variable {hz : Hazard} {w : Clusters} {source : String}

theorem ensure_reaches (hz' : hz.Harmless) (i : Identity) (hsource : w.storeAt? .source = some source) :
    i.ensure.Always hz ((i.ensured (w.store source)).Reaches hz w) w := by
  apply Script.always_ask_of_read hsource
  . rfl
  . have hname : (⟨i.serviceAccount, i.ns⟩ : ItemName) = i.accountName := rfl
    simp only [Store.answer, hname]
    cases haccount : (w.store source).get .serviceAccount i.accountName with
    | ok account =>
      rw [ensured_of_ok haccount]
      apply Script.done_reaches
    | error e =>
      show Script.Always hz _ (if e.isNotFound then _ else _) w
      cases he : e.isNotFound with
      | true =>
        rw [ensured_of_isNotFound haccount he]
        exact Script.createIfAbsent_fail_reaches hz' i.accountWrite hsource _ _
      | false =>
        rw [ensured_of_error haccount he]
        apply Script.done_reaches
  . intro hcut
    exact Prospect.reaches_of_failure _ _ (.inr ⟨_, rfl, hcut⟩)
  . intro e he
    show Script.Always hz _ (if e.isNotFound then _ else _) w
    rw [(hz' e he).1]
    exact Prospect.reaches_of_failure _ _ (.inl ⟨_, _, rfl, he⟩)

def proceed (i : Identity) : Option (Object .secret) → Script Credential
  | none => do
    Script.createIfAbsent .source "create secret" i.placeholder
    Script.fail (.noCredential i.serviceAccount i.ns)
  | some secret =>
    match credentialOf? secret with
    | some credential => pure credential
    | none => Script.fail (.noCredential i.serviceAccount i.ns)

theorem locate_eq (i : Identity) :
    i.locate = (Script.ask .source "list secrets" (.list .secret (.inNamespace i.ns))).bind
      (fun answer => (Script.require "list secrets" answer).bind
        (fun secrets : ObjectList .secret => i.proceed (secrets.items.find? i.isBoundToken))) := by
  have hproceed (secrets : ObjectList .secret) :
      (match secrets.items.find? i.isBoundToken with
        | none => i.proceed none
        | some secret => i.proceed (some secret)) =
        i.proceed (secrets.items.find? i.isBoundToken) := by
    cases secrets.items.find? i.isBoundToken <;> rfl
  simp only [← hproceed]
  rfl

theorem locate_reaches (hz' : hz.Harmless) (i : Identity) (hsource : w.storeAt? .source = some source) :
    i.locate.Always hz ((i.located (w.store source)).Reaches hz w) w := by
  rw [locate_eq]
  apply Script.always_ask_of_read hsource
  . rfl
  . simp only [Store.answer, located, bound, Store.firstIn]
    cases (w.store source).list .secret (.inNamespace i.ns) with
    | error e => apply Script.done_reaches
    | ok secrets =>
      show Script.Always hz _ (i.proceed (secrets.items.find? i.isBoundToken)) w
      simp only [Functor.map, Except.map]
      cases secrets.items.find? i.isBoundToken with
      | none => exact Script.createIfAbsent_fail_reaches hz' i.placeholderWrite hsource _ _
      | some secret =>
        simp only [proceed]
        cases credentialOf? secret with
        | none => apply Script.done_reaches
        | some credential => apply Script.done_reaches
  . intro hcut
    exact Prospect.reaches_of_failure _ _ (.inr ⟨_, rfl, hcut⟩)
  . intro e he
    exact Prospect.reaches_of_failure _ _ (.inl ⟨_, _, rfl, he⟩)

def prospect (i : Identity) (s : Store) : Prospect Credential :=
  (i.ensured s).andThen (fun _ => i.located s)

theorem writes_prospect_of_ok {i : Identity} {s : Store} {credential : Credential}
    (h : (i.prospect s).result = .ok credential) : (i.prospect s).writes = [] := by
  unfold prospect at h ⊢
  cases hr : (i.ensured s).result with
  | error e =>
    rw [Prospect.andThen_of_error hr] at h
    cases h
  | ok u =>
    rw [Prospect.andThen_of_ok hr] at h ⊢
    show (i.ensured s).writes ++ (i.located s).writes = []
    rw [writes_ensured_of_ok hr, writes_located_of_ok h, List.append_nil]

theorem prospect_reaches (hz' : hz.Harmless) (i : Identity)
    (hsource : w.storeAt? .source = some source) :
    (i.ensure.bind (fun _ => i.locate)).Always hz ((i.prospect (w.store source)).Reaches hz w) w := by
  apply Script.bind_reaches (i.ensure_reaches hz' hsource)
  . intro u hu
    rw [writes_ensured_of_ok hu, Clusters.applyAll_nil]
    exact i.locate_reaches hz' hsource
  . intro u hu
    exact .inl (writes_ensured_of_ok hu)

end Identity

namespace Publication

def secretWrite (p : Publication) (descriptor : Kubeconfig) : Write :=
  ⟨.destination, .secret, p.secretInput descriptor⟩

def clientConfigWrite (p : Publication) : Write :=
  ⟨.destination, .clientConfig, p.clientConfigInput⟩

def writes (p : Publication) (descriptor : Kubeconfig) : List Write :=
  [p.secretWrite descriptor, p.clientConfigWrite]

section Writes

variable {w : Clusters} {destination : String}

theorem store_applyAll_writes (h : w.storeAt? .destination = some destination) (p : Publication)
    (descriptor : Kubeconfig) :
    (w.applyAll (p.writes descriptor)).store destination =
      ((w.store destination).ensure (p.secretInput descriptor)).ensure p.clientConfigInput := by
  have h' : (w.apply (p.secretWrite descriptor)).storeAt? .destination = some destination := by
    rw [Clusters.storeAt?_apply, h]
  unfold writes
  rw [Clusters.applyAll_cons, Clusters.applyAll_cons, Clusters.applyAll_nil]
  rw [Clusters.store_apply_self (x := p.clientConfigWrite) h']
  rw [Clusters.store_apply_self (x := p.secretWrite descriptor) h]
  rfl

theorem store_applyAll_writes_of_ne (h : w.storeAt? .destination = some destination) (p : Publication)
    (descriptor : Kubeconfig) {other : String} (hother : other ≠ destination) :
    (w.applyAll (p.writes descriptor)).store other = w.store other := by
  have h' : (w.apply (p.secretWrite descriptor)).storeAt? .destination = some destination := by
    rw [Clusters.storeAt?_apply, h]
  unfold writes
  rw [Clusters.applyAll_cons, Clusters.applyAll_cons, Clusters.applyAll_nil]
  rw [Clusters.store_apply_of_ne (x := p.clientConfigWrite) h' hother]
  exact Clusters.store_apply_of_ne (x := p.secretWrite descriptor) h hother

end Writes

def published (p : Publication) (host : String) (credential : Credential) : Prospect Unit :=
  match translate credential host p.name with
  | .ok descriptor => ⟨.ok (), p.writes descriptor⟩
  | .error e => .fail e

def publish (p : Publication) (host : String) (credential : Credential) : Script Unit := do
  let descriptor ← Script.ofExcept (translate credential host p.name)
  p.publishSecret descriptor
  p.publishClientConfig

theorem publish_reaches {hz : Hazard} (hz' : hz.Harmless) {w : Clusters} {destination : String}
    (p : Publication) (host : String) (credential : Credential)
    (hdestination : w.storeAt? .destination = some destination) :
    (p.publish host credential).Always hz ((p.published host credential).Reaches hz w) w := by
  unfold publish published
  cases translate credential host p.name with
  | error e => apply Script.done_reaches
  | ok descriptor =>
    have hdestination' : (w.apply (p.secretWrite descriptor)).storeAt? .destination =
        some destination := by
      rw [Clusters.storeAt?_apply, hdestination]
    apply Script.bind_reaches
      (Script.createIfAbsent_reaches hz' (p.secretWrite descriptor) hdestination
        "create kubeconfig secret")
      (q := fun _ => ⟨.ok (), [p.clientConfigWrite]⟩)
    . intro _ _
      exact Script.createIfAbsent_reaches hz' p.clientConfigWrite hdestination' "create client config"
    . intro _ _
      exact .inr (List.cons_ne_nil _ _)

end Publication

namespace Config

def advanced (c : Config) (host : String) (s : Store) : Prospect Unit :=
  (c.identity.prospect s).andThen (c.publication.published host)

def prospect (c : Config) (content : Except FileError Bytes) (w : Clusters) : Prospect Unit :=
  if c.isSelfRegistration then
    .fail (.selfRegistration c.source.kubeconfig.text c.source.context)
  else
    match resolveHost c.source content with
    | .error e => .fail e
    | .ok host =>
      match w.storeOf? c.source, w.storeOf? c.destination with
      | none, _ => .fail (.connect c.source.text (.store (.io "unknown cluster")))
      | some _, none => .fail (.connect c.destination.text (.store (.io "unknown cluster")))
      | some source, some _ => c.advanced host (w.store source)

def Ends (hz : Hazard) (p : Prospect Unit) (w : Clusters) (r : Except Error Unit) (w' : Clusters) :
    Prop :=
  p.Reaches hz w r w' ∨ ∃ target e, r = .error (.connect target e) ∧ hz.error e ∧ w' = w

variable {hz : Hazard} {w : Clusters}

theorem advanced_reaches (hz' : hz.Harmless) (c : Config) (host : String)
    {source destination : String} (hsource : w.storeAt? .source = some source)
    (hdestination : w.storeAt? .destination = some destination) :
    ((c.identity.ensure.bind fun _ => c.identity.locate).bind (c.publication.publish host)).Always hz
      ((c.advanced host (w.store source)).Reaches hz w) w := by
  apply Script.bind_reaches (c.identity.prospect_reaches hz' hsource)
  . intro credential hcredential
    rw [Identity.writes_prospect_of_ok hcredential, Clusters.applyAll_nil]
    exact c.publication.publish_reaches hz' host credential hdestination
  . intro credential hcredential
    exact .inl (Identity.writes_prospect_of_ok hcredential)

theorem attempt_eq_of_host {c : Config} {content : Except FileError Bytes} {host : String}
    (hself : c.isSelfRegistration = false) (hhost : resolveHost c.source content = .ok host) :
    c.attempt content =
      (Script.connect .source c.source).bind (fun _ =>
        (Script.connect .destination c.destination).bind (fun _ =>
          (c.identity.ensure.bind fun _ => c.identity.locate).bind (c.publication.publish host))) := by
  unfold attempt
  rw [hself, hhost, Script.bind_assoc]
  rfl

theorem attempt_ends (hz' : hz.Harmless) (c : Config) (content : Except FileError Bytes)
    (htarget : w.target = c.target) :
    (c.attempt content).Always hz (Ends hz (c.prospect content w) w) w := by
  cases hself : c.isSelfRegistration with
  | true =>
    unfold attempt prospect
    rw [if_pos hself, if_pos hself]
    exact .inl (Script.done_reaches _ _)
  | false =>
    cases hhost : resolveHost c.source content with
    | error e =>
      unfold attempt prospect
      rw [hself, hhost]
      exact .inl (Script.done_reaches _ _)
    | ok host =>
      rw [attempt_eq_of_host hself hhost]
      have hprospect : c.prospect content w =
          match w.storeOf? c.source, w.storeOf? c.destination with
          | none, _ => .fail (.connect c.source.text (.store (.io "unknown cluster")))
          | some _, none => .fail (.connect c.destination.text (.store (.io "unknown cluster")))
          | some source, some _ => c.advanced host (w.store source) := by
        simp only [prospect, hself, Bool.false_eq_true, ↓reduceIte, hhost]
      -- An attempt that is given up while it connects has written nothing.
      have hcut (operation : String) (h : hz.cut) :
          Ends hz (c.prospect content w) w (.error (.deadlineExceeded operation)) w :=
        .inl (Prospect.reaches_of_failure _ _ (.inr ⟨_, rfl, h⟩))
      apply Script.always_connect
      . intro source hsource
        apply Script.always_connect
        . intro destination hdestination
          rw [hsource, hdestination] at hprospect
          rw [hprospect]
          have hreaches : Script.Always hz _ _ w := c.advanced_reaches hz' host
            (by rw [Clusters.storeAt?, htarget]; exact hsource)
            (by rw [Clusters.storeAt?, htarget]; exact hdestination)
          apply Script.always_mono hreaches
          intro r w' h
          exact .inl h
        . intro hdestination
          rw [hsource, hdestination] at hprospect
          rw [hprospect]
          exact .inl (.inl ⟨rfl, rfl⟩)
        . exact hcut _
        . intro e he
          exact .inr ⟨_, e, rfl, he, rfl⟩
      . intro hsource
        rw [hsource] at hprospect
        rw [hprospect]
        exact .inl (.inl ⟨rfl, rfl⟩)
      . exact hcut _
      . intro e he
        exact .inr ⟨_, e, rfl, he, rfl⟩

end Config

end ClusterRegistration.Registration
