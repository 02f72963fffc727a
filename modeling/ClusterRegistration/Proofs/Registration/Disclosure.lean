import ClusterRegistration.Proofs.Registration.Course
import ClusterRegistration.Proofs.Store.Reachable

/-!
This module contains what an attempt at a registration discloses of the source: two sources that show the
same are registered alike.
-/

namespace ClusterRegistration.Registration

/--
What a source shows of itself: the server in its kubeconfig, whether the account exists, and the token
and the certificate in the first secret that is bound to the account, if there is one.
-/
structure Disclosure where
  server : String
  account : Bool
  secret? : Option (Option String × Option String)

def Identity.disclosed (secret : Object .secret) : Option String × Option String :=
  let header : SecretHeader := secret.header
  (header.data.get? tokenKey, header.data.get? caKey)

structure Config.Discloses (c : Config) (content : Except FileError Bytes) (s : Store) (d : Disclosure) :
    Prop where
  resolved : ∃ resolved,
    (Kubeconfig.ofFile c.source.kubeconfig content >>= (·.resolve c.source.context)) = .ok resolved ∧
      resolved.cluster.server = d.server
  account : if d.account then ∃ account, s.get .serviceAccount c.identity.accountName = .ok account
    else s.objects.contains c.identity.accountKey = false
  secret : ∃ found, c.identity.bound s = .ok found ∧ found.map Identity.disclosed = d.secret?

def Error.anonymous : Error → Error
  | .malformedCredential _ reason => .malformedCredential "" reason
  | e => e

/--
The same objects are created, and the results differ in nothing but the name of a secret.
-/
structure Prospect.Resembles {α : Type} (p q : Prospect α) : Prop where
  writes : p.writes = q.writes
  result : p.result.mapError Error.anonymous = q.result.mapError Error.anonymous

theorem Prospect.resembles_refl {α : Type} (p : Prospect α) : p.Resembles p :=
  ⟨rfl, rfl⟩

theorem Publication.published_resembles (p : Publication) (host : String) (token ca name name' : String) :
    (p.published host ⟨name, token, ca⟩).Resembles (p.published host ⟨name', token, ca⟩) := by
  have htoken : Credential.decodeToken ⟨name, token, ca⟩ = Credential.decodeToken ⟨name', token, ca⟩ :=
    rfl
  have hca : Credential.decodeCa ⟨name, token, ca⟩ = Credential.decodeCa ⟨name', token, ca⟩ := rfl
  unfold published translate
  rw [htoken, hca]
  cases (do pure (← Credential.decodeToken ⟨name', token, ca⟩,
    ← Credential.decodeCa ⟨name', token, ca⟩) : Except CredentialFault (String × Bytes)) with
  | ok decoded => exact Prospect.resembles_refl _
  | error fault => exact ⟨rfl, rfl⟩

theorem Identity.credentialOf?_of_disclosed {secret secret' : Object .secret}
    (h : disclosed secret = disclosed secret') :
    (credentialOf? secret = none ∧ credentialOf? secret' = none) ∨
      ∃ token ca, credentialOf? secret = some ⟨secret.metadata.name, token, ca⟩ ∧
        credentialOf? secret' = some ⟨secret'.metadata.name, token, ca⟩ := by
  obtain ⟨htoken, hca⟩ := Prod.mk.inj h
  unfold credentialOf?
  simp only [htoken, hca]
  cases (SecretHeader.data secret'.header).get? tokenKey with
  | none => exact .inl ⟨rfl, rfl⟩
  | some token =>
    by_cases hempty : token.isEmpty = true
    . exact .inl ⟨if_pos hempty, if_pos hempty⟩
    . exact .inr ⟨token, _, if_neg hempty, if_neg hempty⟩

section Disclosed

variable {c : Config} {content content' : Except FileError Bytes} {s s' : Store} {d : Disclosure}

theorem Config.resolveHost_of_discloses (h : c.Discloses content s d) (h' : c.Discloses content' s' d) :
    resolveHost c.source content = resolveHost c.source content' := by
  obtain ⟨resolved, hresolved, hserver⟩ := h.resolved
  obtain ⟨resolved', hresolved', hserver'⟩ := h'.resolved
  unfold resolveHost
  simp only [hresolved, hresolved', hserver, hserver']

theorem Config.advanced_resembles (h : c.Discloses content s d) (h' : c.Discloses content' s' d)
    (host : String) : (c.advanced host s).Resembles (c.advanced host s') := by
  obtain ⟨-, haccount, found, hfound, hsecret⟩ := h
  obtain ⟨-, haccount', found', hfound', hsecret'⟩ := h'
  unfold advanced
  cases hd : d.account with
  | false =>
    rw [hd, if_neg Bool.false_ne_true] at haccount haccount'
    rw [Identity.prospect_of_missing haccount, Identity.prospect_of_missing haccount']
    exact Prospect.resembles_refl _
  | true =>
    rw [hd, if_pos rfl] at haccount haccount'
    obtain ⟨account, haccount⟩ := haccount
    obtain ⟨account', haccount'⟩ := haccount'
    rw [Identity.prospect_of_account haccount, Identity.prospect_of_account haccount']
    unfold Identity.located
    rw [hfound, hfound']
    rw [← hsecret'] at hsecret
    -- Both sources show a secret or none of them does, and what they show is the same.
    cases found with
    | none =>
      cases found' with
      | none => exact Prospect.resembles_refl _
      | some secret' => cases hsecret
    | some secret =>
      cases found' with
      | none => cases hsecret
      | some secret' =>
        have hsame : Identity.disclosed secret = Identity.disclosed secret' :=
          Option.some.inj hsecret
        rcases Identity.credentialOf?_of_disclosed hsame with
          ⟨hnone, hnone'⟩ | ⟨token, ca, hcredential, hcredential'⟩
        . simp only [hnone, hnone']
          exact Prospect.resembles_refl _
        . simp only [hcredential, hcredential']
          exact c.publication.published_resembles host token ca _ _

theorem Config.prospect_of_premature {e : Error} (h : c.premature? content = some e) (w : Clusters) :
    c.prospect content w = .fail e := by
  unfold prospect
  rcases of_premature h with ⟨hself, rfl⟩ | ⟨hself, hhost⟩
  . rw [hself]
    rfl
  . rw [hself, hhost]
    rfl

theorem Config.prospect_resembles {w w' : Clusters} {source destination source' destination' : String}
    (h : c.Discloses content (w.store source) d) (h' : c.Discloses content' (w'.store source') d)
    (hsource : w.storeOf? c.source = some source)
    (hdestination : w.storeOf? c.destination = some destination)
    (hsource' : w'.storeOf? c.source = some source')
    (hdestination' : w'.storeOf? c.destination = some destination') :
    (c.prospect content w).Resembles (c.prospect content' w') := by
  have hhosts := resolveHost_of_discloses h h'
  have hpremature : c.premature? content = c.premature? content' := by
    unfold premature?
    rw [hhosts]
  cases hearly : c.premature? content with
  | some e =>
    rw [prospect_of_premature hearly, prospect_of_premature (hpremature ▸ hearly)]
    exact Prospect.resembles_refl _
  | none =>
    -- From here on, only the account and the secret that is bound to it count.
    obtain ⟨host, hself, hhost⟩ := exists_host_of_not_premature hearly
    rw [prospect_of_connected hself hhost hsource hdestination]
    rw [prospect_of_connected hself (hhosts ▸ hhost) hsource' hdestination']
    exact advanced_resembles h h' host

end Disclosed

namespace Clusters

variable (w w' : Clusters) {source destination source' destination' : String}

theorem store_applyAll_of_same (hsource : w.storeAt? .source = some source)
    (hdestination : w.storeAt? .destination = some destination) (hne : source ≠ destination)
    (hsource' : w'.storeAt? .source = some source')
    (hdestination' : w'.storeAt? .destination = some destination') (hne' : source' ≠ destination')
    (hsame : w.store destination = w'.store destination') (xs : List Write) :
    (w.applyAll xs).store destination = (w'.applyAll xs).store destination' := by
  induction xs generalizing w w' with
  | nil => exact hsame
  | cons x xs ih =>
    rw [applyAll_cons, applyAll_cons]
    apply ih (w.apply x) (w'.apply x)
    . rw [storeAt?_apply, hsource]
    . rw [storeAt?_apply, hdestination]
    . rw [storeAt?_apply, hsource']
    . rw [storeAt?_apply, hdestination']
    . cases hside : x.side with
      | source =>
        rw [← hside] at hsource hsource'
        rw [store_apply_of_ne hsource hne.symm, store_apply_of_ne hsource' hne'.symm, hsame]
      | destination =>
        rw [← hside] at hdestination hdestination'
        rw [store_apply_self hdestination, store_apply_self hdestination', hsame]

end Clusters

end ClusterRegistration.Registration
