import ClusterRegistration.Proofs.Registration.Course

/-!
This module contains what an attempt at a registration does in the light of the answers that it got so
far, whoever answers and whatever happens in the meantime.
-/

namespace ClusterRegistration.Registration

structure Event where
  action : Action
  outcome : action.Outcome

namespace Script

variable {α β : Type} {may : List Event → Action → Prop}
  {post post' : List Event → Except Error α → Prop}

/--
Whatever a script is answered, its actions are as `may` says and its result is as `post` says, in the
light of the answers before.
-/
def Throughout (may : List Event → Action → Prop) (post : List Event → Except Error α → Prop) :
    Script α → List Event → Prop
  | .done result, past => post past result
  | .act a next, past => may past a ∧ ∀ o, (next o).Throughout may post (past ++ [⟨a, o⟩])

theorem throughout_mono {s : Script α} {past : List Event} (h : s.Throughout may post past)
    (hpost : ∀ past' r, post past' r → post' past' r) : s.Throughout may post' past := by
  induction s generalizing past with
  | done result =>
    apply hpost
    exact h
  | act a next ih =>
    obtain ⟨hmay, hnext⟩ := h
    refine ⟨hmay, ?_⟩
    intro o
    exact ih o (hnext o)

def thenThroughout (may : List Event → Action → Prop) (post : List Event → Except Error β → Prop)
    (f : α → Script β) (past : List Event) : Except Error α → Prop
  | .ok a => (f a).Throughout may post past
  | .error e => post past (.error e)

theorem throughout_bind {post : List Event → Except Error β → Prop} (s : Script α) (f : α → Script β)
    (past : List Event) :
    (s.bind f).Throughout may post past ↔
      s.Throughout may (thenThroughout may post f) past := by
  induction s generalizing past with
  | done result => cases result <;> exact Iff.rfl
  | act a next ih =>
    simp only [act_bind, Throughout, ih]

end Script

def Established (past : List Event) (x : Write) : Prop :=
  ∃ (operation : String) (answer : Except ClusterError (Object x.kind))
    (created? : Option (Object x.kind)),
    ⟨.ask x.side operation (.create x.kind x.input), answer⟩ ∈ past ∧
      ClusterError.unlessExists answer = .ok created?

namespace Identity

def Listed (i : Identity) (past : List Event) (credential : Credential) : Prop :=
  ∃ (secrets : ObjectList .secret) (secret : Object .secret),
    ⟨.ask .source "list secrets" (.list .secret (.inNamespace i.ns)), .ok secrets⟩ ∈ past ∧
      secrets.items.find? i.isBoundToken = some secret ∧ credentialOf? secret = some credential

end Identity

namespace Config

def Translates (c : Config) (content : Except FileError Bytes) (past : List Event)
    (descriptor : Kubeconfig) : Prop :=
  ∃ host credential, resolveHost c.source content = .ok host ∧ c.identity.Listed past credential ∧
    translate credential host c.publication.name = .ok descriptor

/--
What an attempt may do. In the destination it creates the secret of a description, and then the client
config.
-/
def Permits (c : Config) (content : Except FileError Bytes) (past : List Event) : Action → Prop
  | .connect _ _ => True
  | .ask .source _ _ => True
  | .ask .destination _ r => ∃ descriptor, c.Translates content past descriptor ∧
      (r = .create .secret (c.publication.secretInput descriptor) ∨
        r = .create .clientConfig c.publication.clientConfigInput ∧
          Established past (c.publication.secretWrite descriptor))

/--
How an attempt may end. It succeeds only if both objects are there, and it is not what polls.
-/
structure Concludes (c : Config) (content : Except FileError Bytes) (past : List Event)
    (r : Except Error Unit) : Prop where
  untimed : ∀ attempts last, r ≠ .error (.timeout attempts last)
  published : r = .ok () → ∃ descriptor, c.Translates content past descriptor ∧
    Established past (c.publication.secretWrite descriptor) ∧
    Established past c.publication.clientConfigWrite

end Config

section Past

variable {past past' : List Event}

theorem established_mono (h : past ⊆ past') {x : Write} (hx : Established past x) :
    Established past' x := by
  obtain ⟨operation, answer, created, hmem, hok⟩ := hx
  exact ⟨operation, answer, created, h hmem, hok⟩

theorem Identity.listed_mono (h : past ⊆ past') {i : Identity} {credential : Credential}
    (hlisted : i.Listed past credential) : i.Listed past' credential := by
  obtain ⟨secrets, secret, hmem, hfound⟩ := hlisted
  exact ⟨secrets, secret, h hmem, hfound⟩

theorem Config.translates_mono (h : past ⊆ past') {c : Config} {content : Except FileError Bytes}
    {descriptor : Kubeconfig} (htranslates : c.Translates content past descriptor) :
    c.Translates content past' descriptor := by
  obtain ⟨host, credential, hhost, hlisted, htranslate⟩ := htranslates
  exact ⟨host, credential, hhost, Identity.listed_mono h hlisted, htranslate⟩

end Past

section Attempt

variable {c : Config} {content : Except FileError Bytes} {past : List Event}

namespace Script

def Untimed {α : Type} (_ : List Event) (r : Except Error α) : Prop :=
  ∀ attempts last, r ≠ .error (.timeout attempts last)

theorem connect_throughout (side : Side) (t : Target) (past : List Event) :
    (Script.connect side t).Throughout (c.Permits content) Untimed past := by
  refine ⟨trivial, ?_⟩
  intro o
  cases o with
  | ok _ => nofun
  | error e => nofun

theorem createIfAbsent_throughout (x : Write) (operation : String) {past : List Event}
    (h : c.Permits content past (.ask x.side operation (.create x.kind x.input))) :
    (Script.createIfAbsent x.side operation x.input).Throughout (c.Permits content)
      (fun past' r => Untimed past' r ∧
        (r = .ok () → past ⊆ past' ∧ Established past' x)) past := by
  rw [createIfAbsent_eq]
  refine ⟨h, ?_⟩
  intro (answer : Except ClusterError (Object x.kind))
  show (acknowledge operation answer).Throughout _ _ _
  unfold acknowledge
  -- It does not matter whether the object was created or existed: it is there.
  cases hanswer : ClusterError.unlessExists answer with
  | error e => exact ⟨nofun, nofun⟩
  | ok created =>
    refine ⟨nofun, ?_⟩
    intro _
    refine ⟨List.subset_append_left _ _, operation, answer, created, ?_, hanswer⟩
    exact List.mem_append_right _ List.mem_cons_self

theorem createIfAbsent_fail_throughout {α : Type} (x : Write) (operation : String) {past : List Event}
    (h : c.Permits content past (.ask x.side operation (.create x.kind x.input))) {e : Error}
    (he : ∀ attempts last, e ≠ .timeout attempts last) :
    ((Script.createIfAbsent x.side operation x.input).bind
      (fun _ => (Script.fail e : Script α))).Throughout (c.Permits content)
        (fun past' r => Untimed past' r ∧ ∀ a, r ≠ .ok a) past := by
  apply (throughout_bind _ _ _).mpr
  apply throughout_mono (createIfAbsent_throughout x operation h)
  rintro past' r ⟨huntimed, -⟩
  cases r with
  | ok _ =>
    refine ⟨?_, nofun⟩
    rintro attempts last ⟨⟩
    exact he attempts last rfl
  | error e' =>
    refine ⟨?_, nofun⟩
    rintro attempts last ⟨⟩
    exact huntimed attempts last rfl

end Script

open Script (Untimed)

namespace Identity

theorem ensure_throughout (i : Identity) (past : List Event) :
    i.ensure.Throughout (c.Permits content) Untimed past := by
  refine ⟨trivial, ?_⟩
  intro answer
  cases answer with
  | ok account => nofun
  | error e =>
    show Script.Throughout _ _ (if e.isNotFound then _ else _) _
    split
    . apply Script.throughout_mono
        (Script.createIfAbsent_fail_throughout i.accountWrite _ trivial
          (e := .identityNotReady i.serviceAccount i.ns) nofun)
      intro past' r h
      exact h.1
    . nofun

theorem locate_throughout (i : Identity) (past : List Event) :
    i.locate.Throughout (c.Permits content)
      (fun past' r => Untimed past' r ∧ ∀ credential, r = .ok credential → i.Listed past' credential)
      past := by
  rw [locate_eq]
  refine ⟨trivial, ?_⟩
  intro answer
  cases answer with
  | error e =>
    refine ⟨?_, ?_⟩
    . rintro attempts last ⟨⟩
    . rintro credential ⟨⟩
  | ok secrets =>
    show Script.Throughout _ _ (i.proceed ((ObjectList.items secrets).find? i.isBoundToken)) _
    cases hfound : (ObjectList.items secrets).find? i.isBoundToken with
    | none =>
      have hne (attempts : Nat) (last : Error) :
          Error.noCredential i.serviceAccount i.ns ≠ .timeout attempts last := by
        rintro ⟨⟩
      apply Script.throughout_mono
        (Script.createIfAbsent_fail_throughout i.placeholderWrite _ trivial hne)
      rintro past' r ⟨huntimed, hfailed⟩
      refine ⟨huntimed, ?_⟩
      intro credential hr
      exact absurd hr (hfailed credential)
    | some secret =>
      simp only [proceed]
      cases hcredential : credentialOf? secret with
      | none =>
        refine ⟨?_, ?_⟩
        . rintro attempts last ⟨⟩
        . rintro credential ⟨⟩
      | some credential =>
        refine ⟨?_, ?_⟩
        . rintro attempts last ⟨⟩
        rintro _ ⟨⟩
        refine ⟨secrets, secret, ?_, hfound, hcredential⟩
        exact List.mem_append_right _ List.mem_cons_self

end Identity

theorem Publication.publish_throughout {host : String} {credential : Credential}
    (hhost : resolveHost c.source content = .ok host) (hlisted : c.identity.Listed past credential) :
    (c.publication.publish host credential).Throughout (c.Permits content) (c.Concludes content)
      past := by
  unfold publish
  cases htranslate : translate credential host c.publication.name with
  | error e =>
    obtain ⟨reason, rfl⟩ := eq_of_translate_error htranslate
    exact ⟨nofun, nofun⟩
  | ok descriptor =>
    have htranslates : c.Translates content past descriptor :=
      ⟨host, credential, hhost, hlisted, htranslate⟩
    have hsecret : Script.Throughout _ _ (c.publication.publishSecret descriptor) past :=
      Script.createIfAbsent_throughout (c.publication.secretWrite descriptor)
        "create kubeconfig secret" ⟨descriptor, htranslates, .inl rfl⟩
    apply (Script.throughout_bind (c.publication.publishSecret descriptor) _ past).mpr
    apply Script.throughout_mono hsecret
    rintro past' r ⟨huntimed, hsecret⟩
    cases r with
    | error e => exact ⟨huntimed, nofun⟩
    | ok _ =>
      obtain ⟨hsubset, hsecret⟩ := hsecret rfl
      have htranslates' := Config.translates_mono hsubset htranslates
      have hclientConfig : Script.Throughout _ _ c.publication.publishClientConfig past' :=
        Script.createIfAbsent_throughout c.publication.clientConfigWrite "create client config"
          ⟨descriptor, htranslates', .inr ⟨rfl, hsecret⟩⟩
      apply Script.throughout_mono hclientConfig
      rintro past'' r ⟨huntimed', hclientConfig⟩
      refine ⟨huntimed', ?_⟩
      intro hr
      obtain ⟨hsubset', hclientConfig⟩ := hclientConfig hr
      exact ⟨descriptor, Config.translates_mono hsubset' htranslates',
        established_mono hsubset' hsecret, hclientConfig⟩

theorem Config.attempt_throughout (c : Config) (content : Except FileError Bytes) :
    (c.attempt content).Throughout (c.Permits content) (c.Concludes content) [] := by
  cases hpremature : c.premature? content with
  | some e =>
    rw [attempt_of_premature hpremature]
    rcases premature?_cases hpremature with rfl | ⟨ce, rfl⟩ | ⟨server, reason, rfl⟩
    . exact ⟨nofun, nofun⟩
    . exact ⟨nofun, nofun⟩
    . exact ⟨nofun, nofun⟩
  | none =>
    obtain ⟨host, hself, hhost⟩ := exists_host_of_not_premature hpremature
    rw [attempt_eq_of_host hself hhost]
    -- A failure on the way to the credential is that of the attempt.
    have hfailed {past : List Event} {e : Error} (h : Untimed past (.error e : Except Error Unit)) :
        c.Concludes content past (.error e) := ⟨h, nofun⟩
    apply (Script.throughout_bind _ _ _).mpr
    apply Script.throughout_mono (Script.connect_throughout .source c.source _)
    rintro past (e | _) huntimed
    . exact hfailed huntimed
    apply (Script.throughout_bind _ _ _).mpr
    apply Script.throughout_mono (Script.connect_throughout .destination c.destination _)
    rintro past (e | _) huntimed
    . exact hfailed huntimed
    apply (Script.throughout_bind _ _ _).mpr
    apply (Script.throughout_bind _ _ _).mpr
    apply Script.throughout_mono (c.identity.ensure_throughout _)
    rintro past (e | _) huntimed
    . exact hfailed huntimed
    apply Script.throughout_mono (c.identity.locate_throughout _)
    rintro past (e | credential) ⟨huntimed, hlisted⟩
    . refine hfailed ?_
      rintro attempts last ⟨⟩
      exact huntimed attempts last rfl
    . exact Publication.publish_throughout hhost (hlisted credential rfl)

end Attempt

end ClusterRegistration.Registration
