import ClusterRegistration.Proofs.Registration.Course

/-!
This module contains what becomes of attempts that follow each other: an attempt goes on where the one
before has ended or stopped.
-/

namespace ClusterRegistration.Registration

namespace Identity

variable (i : Identity) (s : Store)

structure Keeps (s s' : Store) : Prop where
  account : s'.get .serviceAccount i.accountName = s.get .serviceAccount i.accountName
  bound : i.bound s' = i.bound s

theorem prospect_of_keeps {i : Identity} {s s' : Store} (h : i.Keeps s s') :
    i.prospect s' = i.prospect s := by
  unfold prospect ensured located
  rw [h.account, h.bound]

theorem keeps_refl : i.Keeps s s :=
  ⟨rfl, rfl⟩

theorem get_account_ensure {k : Kind} (input : ObjectInput k)
    (h : Kind.serviceAccount.definition ≠ k.definition) :
    (s.ensure input).get .serviceAccount i.accountName = s.get .serviceAccount i.accountName := by
  apply Store.get_ensure_of_ne
  intro hkey
  exact h (congrArg Store.Key.definition hkey)

theorem keeps_ensure_secretInput (p : Publication) (descriptor : Kubeconfig) :
    i.Keeps s (s.ensure (p.secretInput descriptor)) where
  account := i.get_account_ensure s _ (by decide)
  bound := by
    have hfits : Kind.SpecFits .secret (p.secretInput descriptor).spec := trivial
    apply Store.firstIn_ensure_of_not hfits
    intro version
    rfl

theorem keeps_ensure_clientConfigInput (p : Publication) :
    i.Keeps s (s.ensure p.clientConfigInput) where
  account := i.get_account_ensure s _ (by decide)
  bound := by
    apply Store.firstIn_ensure_of_definition_ne
    decide

theorem isIn_placeholder (i : Identity) :
    Store.isIn .secret (.inNamespace i.ns) (Store.inputKey i.placeholder) = true := by
  have hdefinition : (Store.inputKey i.placeholder).definition = Kind.secret.definition := rfl
  have hns : (Store.inputKey i.placeholder).ns = i.ns := rfl
  unfold Store.isIn
  rw [hdefinition, hns]
  simp

theorem isBoundToken_placeholder (i : Identity) (version : Nat) :
    i.isBoundToken (Store.created i.placeholder version) = true := by
  have htype :
      SecretHeader.isServiceAccountToken (Store.created i.placeholder version).header = true := rfl
  have hannotated : (Store.created i.placeholder version).metadata.annotations.get?
      SecretHeader.serviceAccountAnnotation = some i.serviceAccount := by
    apply OrderedMap.get?_insert_self
  unfold isBoundToken
  rw [hannotated]
  simpa using htype

theorem bound_ensure_placeholder {i : Identity} {s : Store} (hbound : i.bound s = .ok none)
    (hkey : s.objects.contains (Store.inputKey i.placeholder) = false) :
    ∃ secret, i.bound (s.ensure i.placeholder) = .ok (some secret) ∧ credentialOf? secret = none := by
  have hfits : Kind.SpecFits .secret i.placeholder.spec := trivial
  refine ⟨Store.created i.placeholder (s.version + 1), ?_, rfl⟩
  rw [Store.ensure_of_absent hkey]
  apply Store.firstIn_write_of_none hkey i.isIn_placeholder
  . exact Store.fits_created hfits _
  . apply isBoundToken_placeholder
  . exact hbound

theorem prospect_ensure_placeholder {i : Identity} {s : Store} {account : Object .serviceAccount}
    (haccount : s.get .serviceAccount i.accountName = .ok account) (hbound : i.bound s = .ok none)
    (hkey : s.objects.contains (Store.inputKey i.placeholder) = false) :
    i.prospect (s.ensure i.placeholder) = .fail (.noCredential i.serviceAccount i.ns) := by
  have hkept : (s.ensure i.placeholder).get .serviceAccount i.accountName = .ok account := by
    rw [i.get_account_ensure s _ (by decide), haccount]
  obtain ⟨secret, hfound, hempty⟩ := bound_ensure_placeholder hbound hkey
  unfold prospect
  rw [ensured_of_ok hkept, Prospect.andThen_of_ok (p := ⟨.ok (), []⟩) rfl]
  unfold located
  simp only [hfound, hempty]
  rfl

end Identity

namespace Config

def after (c : Config) (content : Except FileError Bytes) (w : Clusters) : Clusters :=
  w.applyAll (c.prospect content w).writes

variable {c : Config} {content : Except FileError Bytes} {w : Clusters} {host source destination : String}

theorem advanced_of_apply {x : Write} (hx : x = c.publication.clientConfigWrite ∨
    ∃ descriptor, x = c.publication.secretWrite descriptor) :
    c.advanced host ((w.apply x).store source) = c.advanced host (w.store source) := by
  have hkeeps : c.identity.Keeps (w.store source) ((w.apply x).store source) := by
    unfold Clusters.apply
    split
    . next name hname =>
      by_cases hsource : source = name
      . subst hsource
        rw [Clusters.store_put_self]
        rcases hx with rfl | ⟨descriptor, rfl⟩
        . exact c.identity.keeps_ensure_clientConfigInput _ c.publication
        . exact c.identity.keeps_ensure_secretInput _ c.publication descriptor
      . rw [Clusters.store_put_of_ne _ hsource]
        exact c.identity.keeps_refl _
    . exact c.identity.keeps_refl _
  unfold advanced
  rw [Identity.prospect_of_keeps hkeeps]

theorem advanced_of_applyAll_writes (w : Clusters) (descriptor : Kubeconfig) :
    c.advanced host ((w.applyAll (c.publication.writes descriptor)).store source) =
      c.advanced host (w.store source) := by
  unfold Publication.writes
  rw [Clusters.applyAll_cons, Clusters.applyAll_cons, Clusters.applyAll_nil]
  rw [advanced_of_apply (.inl rfl), advanced_of_apply (.inr ⟨descriptor, rfl⟩)]

theorem apply_apply {name : String} (x : Write) (h : w.storeAt? x.side = some name) :
    (w.apply x).apply x = w.apply x := by
  have h' : (w.apply x).storeAt? x.side = some name := by
    rw [Clusters.storeAt?_apply, h]
  apply Clusters.apply_of_contains h'
  rw [Clusters.store_apply_self h]
  apply Store.contains_ensure_self

theorem applyAll_writes_of_contains {w : Clusters} (p : Publication) (descriptor : Kubeconfig)
    (h : w.storeAt? .destination = some destination)
    (hsecret : (w.store destination).objects.contains
      (Store.inputKey (p.secretInput descriptor)) = true)
    (hclientConfig : (w.store destination).objects.contains
      (Store.inputKey p.clientConfigInput) = true) :
    w.applyAll (p.writes descriptor) = w := by
  unfold Publication.writes
  rw [Clusters.applyAll_cons, Clusters.apply_of_contains (x := p.secretWrite descriptor) h hsecret]
  rw [Clusters.applyAll_cons, Clusters.apply_of_contains (x := p.clientConfigWrite) h hclientConfig]
  rfl

theorem applyAll_writes_twice (h : w.storeAt? .destination = some destination) (p : Publication)
    (descriptor : Kubeconfig) :
    (w.applyAll (p.writes descriptor)).applyAll (p.writes descriptor) =
      w.applyAll (p.writes descriptor) := by
  have hstore := p.store_applyAll_writes h descriptor
  have h' : (w.applyAll (p.writes descriptor)).storeAt? .destination = some destination := by
    rw [Clusters.storeAt?_applyAll, h]
  apply applyAll_writes_of_contains p descriptor h'
  . rw [hstore]
    apply Store.contains_ensure_of_contains
    apply Store.contains_ensure_self
  . rw [hstore]
    apply Store.contains_ensure_self

structure Connected (c : Config) (content : Except FileError Bytes) (w : Clusters)
    (host source destination : String) : Prop where
  ofSource : w.storeAt? .source = some source
  ofDestination : w.storeAt? .destination = some destination
  ofProspect : ∀ w' : Clusters, w'.storeOf? = w.storeOf? →
    c.prospect content w' = c.advanced host (w'.store source)

theorem connected_of_host (htarget : w.target = c.target) (hself : c.isSelfRegistration = false)
    (hhost : resolveHost c.source content = .ok host) (hsource : w.storeOf? c.source = some source)
    (hdestination : w.storeOf? c.destination = some destination) :
    c.Connected content w host source destination where
  ofSource := by
    unfold Clusters.storeAt?
    rw [htarget]
    exact hsource
  ofDestination := by
    unfold Clusters.storeAt?
    rw [htarget]
    exact hdestination
  ofProspect w' hw' := by
    apply prospect_of_connected hself hhost
    . rw [hw', hsource]
    . rw [hw', hdestination]

theorem connected_applyAll (h : c.Connected content w host source destination) (xs : List Write) :
    c.Connected content (w.applyAll xs) host source destination where
  ofSource := by rw [Clusters.storeAt?_applyAll, h.ofSource]
  ofDestination := by rw [Clusters.storeAt?_applyAll, h.ofDestination]
  ofProspect := by
    rw [Clusters.storeOf?_applyAll]
    exact h.ofProspect

theorem after_after_of_account (h : c.Connected content w host source destination)
    (haccount : (w.store source).objects.contains c.identity.accountKey = true) :
    c.after content (c.after content w) = c.after content w ∧
      (c.prospect content (c.after content w)).result = (c.prospect content w).result := by
  have hfollowing := h.ofProspect (c.after content w) (Clusters.storeOf?_applyAll w _)
  have hcourse := c.advanced_course host (w.store source)
  unfold after at hfollowing ⊢
  rw [hfollowing, h.ofProspect w rfl]
  generalize hp : c.advanced host (w.store source) = p at hcourse
  cases hcourse with
  | failed e he =>
    rw [Prospect.fail, Clusters.applyAll_nil, hp]
    exact ⟨rfl, rfl⟩
  | missing hmissing =>
    rw [haccount] at hmissing
    cases hmissing
  | unbound account haccount hbound =>
    cases hkey : (w.store source).objects.contains (Store.inputKey c.identity.placeholder) with
    | true =>
      have hdone : w.applyAll [c.identity.placeholderWrite] = w :=
        Clusters.apply_of_contains (x := c.identity.placeholderWrite) h.ofSource hkey
      rw [hdone, hp]
      exact ⟨hdone, rfl⟩
    | false =>
      -- The next attempt finds the placeholder, in which there is no token yet.
      have hstore : (w.applyAll [c.identity.placeholderWrite]).store source =
          (w.store source).ensure c.identity.placeholder :=
        Clusters.store_apply_self (x := c.identity.placeholderWrite) h.ofSource
      have hunissued : c.advanced host ((w.store source).ensure c.identity.placeholder) =
          .fail (.noCredential c.identity.serviceAccount c.identity.ns) := by
        unfold advanced
        rw [Identity.prospect_ensure_placeholder haccount hbound hkey]
        rfl
      rw [hstore, hunissued]
      exact ⟨rfl, rfl⟩
  | published credential descriptor hissued hdescriptor =>
    rw [advanced_of_applyAll_writes, hp]
    exact ⟨applyAll_writes_twice h.ofDestination c.publication descriptor, rfl⟩

theorem after_of_missing (h : c.Connected content w host source destination)
    (hmissing : (w.store source).objects.contains c.identity.accountKey = false) :
    c.after content w = w.apply c.identity.accountWrite := by
  unfold after
  rw [h.ofProspect w rfl]
  unfold advanced
  rw [Identity.prospect_of_missing hmissing]
  rfl

theorem after_after_after (h : c.Connected content w host source destination) :
    c.after content (c.after content (c.after content w)) = c.after content (c.after content w) ∧
      (c.prospect content (c.after content (c.after content w))).result =
        (c.prospect content (c.after content w)).result := by
  cases haccount : (w.store source).objects.contains c.identity.accountKey with
  | true =>
    obtain ⟨hafter, -⟩ := after_after_of_account h haccount
    rw [hafter, hafter]
    exact ⟨rfl, rfl⟩
  | false =>
    have hstore : (c.after content w).store source =
        (w.store source).ensure c.identity.accountInput := by
      rw [after_of_missing h haccount]
      exact Clusters.store_apply_self (x := c.identity.accountWrite) h.ofSource
    apply after_after_of_account (connected_applyAll h _)
    show ((c.after content w).store source).objects.contains c.identity.accountKey = true
    rw [hstore]
    exact Store.contains_ensure_self _ c.identity.accountInput

theorem after_of_prefix (h : c.Connected content w host source destination) {xs : List Write}
    (hxs : xs <+: (c.prospect content w).writes) :
    w.applyAll xs = c.after content w ∨
      c.prospect content (w.applyAll xs) = c.prospect content w ∧
        c.after content (w.applyAll xs) = c.after content w := by
  by_cases hpart : xs = (c.prospect content w).writes
  . left
    rw [hpart]
    rfl
  . right
    have hcourse := c.advanced_course host (w.store source)
    have hfollowing := h.ofProspect (w.applyAll xs) (Clusters.storeOf?_applyAll w xs)
    rw [h.ofProspect w rfl] at hxs hpart
    rcases hcourse.eq_nil_or_secret hxs hpart with rfl | ⟨descriptor, hp, rfl⟩
    . exact ⟨rfl, rfl⟩
    -- The secret is there already, and the next attempt creates what comes after it.
    . have hsame : c.prospect content (w.applyAll [c.publication.secretWrite descriptor]) =
          c.prospect content w := by
        rw [hfollowing, h.ofProspect w rfl]
        exact advanced_of_apply (.inr ⟨descriptor, rfl⟩)
      refine ⟨hsame, ?_⟩
      have hagain : (w.applyAll [c.publication.secretWrite descriptor]).apply
          (c.publication.secretWrite descriptor) =
            w.apply (c.publication.secretWrite descriptor) :=
        apply_apply _ h.ofDestination
      unfold after
      rw [hsame, h.ofProspect w rfl, hp]
      unfold Publication.writes
      rw [Clusters.applyAll_cons, Clusters.applyAll_cons, Clusters.applyAll_nil, hagain]
      rfl

structure Alike (c : Config) (content : Except FileError Bytes) (w w' : Clusters) : Prop where
  after : c.after content (c.after content w') = c.after content (c.after content w)
  result : (c.prospect content (c.after content w')).result =
    (c.prospect content (c.after content w)).result

theorem alike_refl (w : Clusters) : c.Alike content w w :=
  ⟨rfl, rfl⟩

theorem alike_trans {w w' w'' : Clusters} (h : c.Alike content w w') (h' : c.Alike content w' w'') :
    c.Alike content w w'' :=
  ⟨h'.after.trans h.after, h'.result.trans h.result⟩

theorem alike_of_prefix (htarget : w.target = c.target) {xs : List Write}
    (hxs : xs <+: (c.prospect content w).writes) : c.Alike content w (w.applyAll xs) := by
  rcases c.prospect_cases content w with
    ⟨e, -, hfailed⟩ | ⟨host, source, destination, hsource, hdestination, hprospect⟩
  . rw [hfailed w rfl, Prospect.fail, List.prefix_nil] at hxs
    rw [hxs]
    exact alike_refl w
  . have h : c.Connected content w host source destination := by
      refine ⟨?_, ?_, hprospect⟩
      . unfold Clusters.storeAt?
        rw [htarget]
        exact hsource
      . unfold Clusters.storeAt?
        rw [htarget]
        exact hdestination
    rcases after_of_prefix h hxs with hdone | ⟨-, hafter⟩
    . obtain ⟨hafter, hresult⟩ := after_after_after h
      rw [hdone]
      exact ⟨hafter, hresult⟩
    . constructor
      . rw [hafter]
      . rw [hafter]

end Config

end ClusterRegistration.Registration
