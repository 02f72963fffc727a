import ClusterRegistration.Proofs.Registration.Attempt

namespace ClusterRegistration.Registration

theorem eq_of_translate_error {credential : Credential} {host name : String} {e : Error}
    (h : translate credential host name = .error e) :
    ∃ reason, e = .malformedCredential credential.secret reason := by
  unfold translate at h
  split at h
  . cases h
  . cases h
    exact ⟨_, rfl⟩

theorem eq_of_resolveHost_error {t : Target} {content : Except FileError Bytes} {e : Error}
    (h : resolveHost t content = .error e) :
    (∃ ce, e = .config ce) ∨ ∃ server reason, e = .invalidEndpoint t.context server reason := by
  unfold resolveHost at h
  split at h
  . cases h
    exact .inl ⟨_, rfl⟩
  . next resolved hresolved =>
    simp only [validateEndpoint] at h
    cases hfault : endpointFault? (Text.trim resolved.cluster.server) with
    | none =>
      rw [hfault] at h
      cases h
    | some fault =>
      rw [hfault] at h
      cases h
      exact .inr ⟨_, _, rfl⟩

theorem isRecoverable_of_resolveHost_error {t : Target} {content : Except FileError Bytes} {e : Error}
    (h : resolveHost t content = .error e) : e.isRecoverable = false := by
  rcases eq_of_resolveHost_error h with ⟨ce, rfl⟩ | ⟨server, reason, rfl⟩
  . rfl
  . rfl

theorem isRecoverable_of_translate_error {credential : Credential} {host name : String} {e : Error}
    (h : translate credential host name = .error e) : e.isRecoverable = false := by
  obtain ⟨reason, rfl⟩ := eq_of_translate_error h
  rfl

namespace Config

def premature? (c : Config) (content : Except FileError Bytes) : Option Error :=
  if c.isSelfRegistration then
    some (.selfRegistration c.source.kubeconfig.text c.source.context)
  else
    match resolveHost c.source content with
    | .error e => some e
    | .ok _ => none

variable {c : Config} {content : Except FileError Bytes}

theorem of_premature {e : Error} (h : c.premature? content = some e) :
    c.isSelfRegistration = true ∧ e = .selfRegistration c.source.kubeconfig.text c.source.context ∨
      c.isSelfRegistration = false ∧ resolveHost c.source content = .error e := by
  unfold premature? at h
  cases hself : c.isSelfRegistration with
  | true =>
    rw [if_pos hself] at h
    cases h
    exact .inl ⟨rfl, rfl⟩
  | false =>
    rw [if_neg (by simp [hself])] at h
    cases hhost : resolveHost c.source content with
    | error e' =>
      rw [hhost] at h
      cases h
      exact .inr ⟨rfl, rfl⟩
    | ok host =>
      rw [hhost] at h
      cases h

theorem premature?_cases {e : Error} (h : c.premature? content = some e) :
    e = .selfRegistration c.source.kubeconfig.text c.source.context ∨ (∃ ce, e = .config ce) ∨
      ∃ server reason, e = .invalidEndpoint c.source.context server reason := by
  rcases of_premature h with ⟨-, he⟩ | ⟨-, hhost⟩
  . exact .inl he
  . exact .inr (eq_of_resolveHost_error hhost)

theorem attempt_of_premature {e : Error} (h : c.premature? content = some e) :
    c.attempt content = Script.fail e := by
  unfold attempt
  rcases of_premature h with ⟨hself, rfl⟩ | ⟨hself, hhost⟩
  . rw [hself]
    rfl
  . rw [hself, hhost]
    rfl

theorem exists_host_of_not_premature (h : c.premature? content = none) :
    ∃ host, c.isSelfRegistration = false ∧ resolveHost c.source content = .ok host := by
  unfold premature? at h
  split at h
  . cases h
  . next hself =>
    split at h
    . cases h
    . next host hhost => exact ⟨host, by simpa using hself, hhost⟩

theorem premature?_of_host {host : String} (hself : c.isSelfRegistration = false)
    (hhost : resolveHost c.source content = .ok host) : c.premature? content = none := by
  unfold premature?
  rw [hself, hhost]
  rfl

end Config

namespace Identity

def accountKey (i : Identity) : Store.Key :=
  Store.Key.of .serviceAccount i.accountName

def Issued (i : Identity) (s : Store) (credential : Credential) : Prop :=
  (∃ account, s.get .serviceAccount i.accountName = .ok account) ∧
    ∃ secret, i.bound s = .ok (some secret) ∧ credentialOf? secret = some credential

end Identity

inductive Config.Course (c : Config) (host : String) (s : Store) : Prospect Unit → Prop where
  | failed (e : Error) (h : ∀ name ns, e ≠ .identityNotReady name ns) : Course c host s (.fail e)
  | missing (h : s.objects.contains c.identity.accountKey = false) :
    Course c host s
      ⟨.error (.identityNotReady c.identity.serviceAccount c.identity.ns), [c.identity.accountWrite]⟩
  | unbound (account : Object .serviceAccount)
    (haccount : s.get .serviceAccount c.identity.accountName = .ok account)
    (hbound : c.identity.bound s = .ok none) :
    Course c host s
      ⟨.error (.noCredential c.identity.serviceAccount c.identity.ns), [c.identity.placeholderWrite]⟩
  | published (credential : Credential) (descriptor : Kubeconfig)
    (hissued : c.identity.Issued s credential)
    (hdescriptor : translate credential host c.publication.name = .ok descriptor) :
    Course c host s ⟨.ok (), c.publication.writes descriptor⟩

theorem Identity.prospect_of_missing {i : Identity} {s : Store}
    (h : s.objects.contains i.accountKey = false) :
    i.prospect s = ⟨.error (.identityNotReady i.serviceAccount i.ns), [i.accountWrite]⟩ := by
  obtain ⟨e, haccount, he⟩ := (s.isNotFound_get .serviceAccount i.accountName).mpr h
  unfold prospect
  rw [ensured_of_isNotFound haccount he]
  rfl

theorem Identity.prospect_of_account {i : Identity} {s : Store} {account : Object .serviceAccount}
    (h : s.get .serviceAccount i.accountName = .ok account) : i.prospect s = i.located s := by
  unfold prospect
  rw [ensured_of_ok h]
  rfl

theorem Config.advanced_course (c : Config) (host : String) (s : Store) :
    c.Course host s (c.advanced host s) := by
  have hmissing := s.isNotFound_get .serviceAccount c.identity.accountName
  unfold advanced
  -- As an attempt goes: the account, the secret, its credential, and what that is translated into.
  cases haccount : s.get .serviceAccount c.identity.accountName with
  | error e =>
    cases he : e.isNotFound with
    | true =>
      have hmissing := hmissing.mp ⟨e, haccount, he⟩
      rw [Identity.prospect_of_missing hmissing]
      exact Course.missing hmissing
    | false =>
      unfold Identity.prospect
      rw [Identity.ensured_of_error haccount he]
      apply Course.failed
      simp
  | ok account =>
    rw [Identity.prospect_of_account haccount]
    unfold Identity.located
    cases hbound : c.identity.bound s with
    | error e =>
      apply Course.failed
      simp
    | ok found =>
      cases found with
      | none => exact Course.unbound account haccount hbound
      | some secret =>
        cases hcredential : Identity.credentialOf? secret with
        | none =>
          simp only [hcredential]
          apply Course.failed
          simp
        | some credential =>
          simp only [hcredential]
          show Course c host s (c.publication.published host credential)
          unfold Publication.published
          cases hdescriptor : translate credential host c.publication.name with
          | error e =>
            apply Course.failed
            rintro name ns rfl
            cases isRecoverable_of_translate_error hdescriptor
          | ok descriptor =>
            apply Course.published credential descriptor ⟨⟨account, haccount⟩, secret, hbound, hcredential⟩
            exact hdescriptor

theorem Config.advanced_of_issued {c : Config} {host : String} {s : Store} {credential : Credential}
    {descriptor : Kubeconfig} (hissued : c.identity.Issued s credential)
    (hdescriptor : translate credential host c.publication.name = .ok descriptor) :
    c.advanced host s = ⟨.ok (), c.publication.writes descriptor⟩ := by
  obtain ⟨⟨account, haccount⟩, secret, hbound, hcredential⟩ := hissued
  unfold advanced
  rw [Identity.prospect_of_account haccount]
  unfold Identity.located Prospect.andThen Publication.published
  simp only [hbound, hcredential, hdescriptor]
  rfl

theorem Config.Course.eq_nil_or_secret {c : Config} {host : String} {s : Store} {p : Prospect Unit}
    {xs : List Write} (hcourse : c.Course host s p) (hxs : xs <+: p.writes) (hpart : xs ≠ p.writes) :
    xs = [] ∨ ∃ descriptor, p = ⟨.ok (), c.publication.writes descriptor⟩ ∧
      xs = [c.publication.secretWrite descriptor] := by
  obtain ⟨ys, hys⟩ := hxs
  cases xs with
  | nil => exact .inl rfl
  | cons x xs =>
    right
    cases hcourse with
    | failed e he => cases hys
    | missing hmissing =>
      simp only [List.cons_append, List.cons.injEq, List.append_eq_nil_iff] at hys
      simp [hys] at hpart
    | unbound account haccount hbound =>
      simp only [List.cons_append, List.cons.injEq, List.append_eq_nil_iff] at hys
      simp [hys] at hpart
    | published credential descriptor hissued hdescriptor =>
      refine ⟨descriptor, rfl, ?_⟩
      unfold Publication.writes at hys hpart
      simp only [List.cons_append, List.cons.injEq] at hys
      obtain ⟨rfl, hys⟩ := hys
      cases xs with
      | nil => rfl
      | cons x xs =>
        simp only [List.cons_append, List.cons.injEq, List.append_eq_nil_iff] at hys
        simp [hys] at hpart

theorem Config.prospect_of_connected {c : Config} {content : Except FileError Bytes} {w : Clusters}
    {host source destination : String} (hself : c.isSelfRegistration = false)
    (hhost : resolveHost c.source content = .ok host) (hsource : w.storeOf? c.source = some source)
    (hdestination : w.storeOf? c.destination = some destination) :
    c.prospect content w = c.advanced host (w.store source) := by
  simp only [prospect, hself, Bool.false_eq_true, ↓reduceIte, hhost, hsource, hdestination]

theorem Config.prospect_cases (c : Config) (content : Except FileError Bytes) (w : Clusters) :
    (∃ e, (∀ name ns, e ≠ .identityNotReady name ns) ∧
      ∀ w', w'.storeOf? = w.storeOf? → c.prospect content w' = .fail e) ∨
    ∃ host source destination,
      w.storeOf? c.source = some source ∧ w.storeOf? c.destination = some destination ∧
      ∀ w', w'.storeOf? = w.storeOf? → c.prospect content w' = c.advanced host (w'.store source) := by
  cases hself : c.isSelfRegistration with
  | true =>
    refine .inl ⟨.selfRegistration c.source.kubeconfig.text c.source.context, by simp, ?_⟩
    intro w' _
    exact if_pos hself
  | false =>
    cases hhost : resolveHost c.source content with
    | error e =>
      refine .inl ⟨e, ?_, ?_⟩
      . rintro name ns rfl
        cases isRecoverable_of_resolveHost_error hhost
      . intro w' _
        simp only [prospect, hself, Bool.false_eq_true, ↓reduceIte, hhost]
    | ok host =>
      cases hsource : w.storeOf? c.source with
      | none =>
        refine .inl ⟨.connect c.source.text (.store (.io "unknown cluster")), by simp, ?_⟩
        intro w' hw'
        simp only [prospect, hself, Bool.false_eq_true, ↓reduceIte, hhost, hw', hsource]
      | some source =>
        cases hdestination : w.storeOf? c.destination with
        | none =>
          refine .inl ⟨.connect c.destination.text (.store (.io "unknown cluster")), by simp, ?_⟩
          intro w' hw'
          simp only [prospect, hself, Bool.false_eq_true, ↓reduceIte, hhost, hw', hsource,
            hdestination]
        | some destination =>
          refine .inr ⟨host, source, destination, rfl, rfl, ?_⟩
          intro w' hw'
          apply prospect_of_connected hself hhost
          . rw [hw', hsource]
          . rw [hw', hdestination]

end ClusterRegistration.Registration
