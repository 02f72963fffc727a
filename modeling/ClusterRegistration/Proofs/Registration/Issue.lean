import ClusterRegistration.Proofs.Registration.Descriptor
import ClusterRegistration.Proofs.Registration.Retry
import ClusterRegistration.Proofs.Store.Reachable

/-!
This module contains the way of a source from a service account without a token to one with a token:
the account is created, then the secret that asks for the token, which the token controller replaces.
-/

namespace ClusterRegistration.Registration

namespace Identity

variable {i : Identity} {s : Store}

def Unbound (i : Identity) (s : Store) : Prop :=
  ∀ name secret, s.get .secret ⟨name, i.ns⟩ = .ok secret → i.isBoundToken secret = false

def placeholderItem (i : Identity) : ItemName :=
  ⟨i.placeholderName, i.ns⟩

def placeholderKey (i : Identity) : Store.Key :=
  Store.Key.of .secret i.placeholderItem

def requested (i : Identity) (s : Store) : Store :=
  (s.ensure i.accountInput).ensure i.placeholder

structure Issues (i : Identity) (secret : Object .secret) (token : String) (ca : Bytes) : Prop where
  fits : secret.Fits
  item : secret.metadata.itemName = i.placeholderItem
  bound : i.isBoundToken secret = true
  tokenData : (SecretHeader.data secret.header).get? tokenKey =
    some (base64Text (Text.Utf8.encode token))
  caData : (SecretHeader.data secret.header).get? caKey = some (base64Text ca)
  notBlank : Text.allBlank token = false
  notEmpty : ca ≠ []

def filled (i : Identity) (token : String) (ca : Bytes) : Object .secret :=
  let data := OrderedMap.ofList
    [(tokenKey, base64Text (Text.Utf8.encode token)), (caKey, base64Text ca)]
  let header : SecretHeader := ⟨data, SecretHeader.serviceAccountToken⟩
  { Store.created i.placeholder 2 with header := header }

theorem issues_filled (i : Identity) {token : String} {ca : Bytes} (htoken : Text.allBlank token = false)
    (hca : ca ≠ []) : i.Issues (i.filled token ca) token ca where
  fits := by
    have hfits : Kind.SpecFits .secret i.placeholder.spec := trivial
    exact Store.fits_created hfits 2
  item := rfl
  bound := i.isBoundToken_placeholder 2
  tokenData := by
    have hne : tokenKey ≠ caKey := by decide
    exact (OrderedMap.get?_insert_of_ne _ hne _).trans (OrderedMap.get?_insert_self _ _ _)
  caData := OrderedMap.get?_insert_self _ _ _
  notBlank := htoken
  notEmpty := hca

theorem unbound_empty (i : Identity) : i.Unbound Store.empty := by
  intro name secret hget
  cases hget

theorem bound_of_unbound (hs : s.Reachable) (h : i.Unbound s) : i.bound s = .ok none := by
  apply hs.firstIn_of_none Kind.isAlone_secret rfl
  exact h

theorem prospect_of_unbound (hs : s.Reachable) (h : i.Unbound s)
    (haccount : s.objects.contains i.accountKey = true) :
    i.prospect s = ⟨.error (.noCredential i.serviceAccount i.ns), [i.placeholderWrite]⟩ := by
  obtain ⟨account, hget⟩ := hs.exists_get Kind.isAlone_serviceAccount haccount
  rw [prospect_of_account hget]
  unfold located
  rw [bound_of_unbound hs h]

theorem get_secret_ensure_accountInput (i : Identity) (s : Store) (item : ItemName) :
    (s.ensure i.accountInput).get .secret item = s.get .secret item := by
  apply Store.get_ensure_of_ne
  exact Store.key_ne (by decide) _ _

theorem unbound_ensure_accountInput (h : i.Unbound s) : i.Unbound (s.ensure i.accountInput) := by
  intro name secret hget
  rw [get_secret_ensure_accountInput] at hget
  exact h name secret hget

theorem contains_placeholderKey_ensure_accountInput (i : Identity) (s : Store) :
    (s.ensure i.accountInput).objects.contains i.placeholderKey =
      s.objects.contains i.placeholderKey := by
  apply Store.contains_ensure_of_ne
  exact Store.key_ne (by decide) _ _

theorem reachable_requested (hs : s.Reachable) : (i.requested s).Reachable :=
  (hs.ensure i.accountInput trivial).ensure i.placeholder trivial

theorem contains_accountKey_requested (i : Identity) (s : Store) :
    (i.requested s).objects.contains i.accountKey = true := by
  apply Store.contains_ensure_of_contains
  exact Store.contains_ensure_self s i.accountInput

theorem contains_placeholderKey_requested (i : Identity) (s : Store) :
    (i.requested s).objects.contains i.placeholderKey = true :=
  Store.contains_ensure_self _ i.placeholder

theorem isBoundToken_of_get_requested (h : i.Unbound s) {name : String}
    (hname : name ≠ i.placeholderName) {secret : Object .secret}
    (hget : (i.requested s).get .secret ⟨name, i.ns⟩ = .ok secret) :
    i.isBoundToken secret = false := by
  have hkey : Store.Key.of .secret ⟨name, i.ns⟩ ≠ Store.inputKey i.placeholder := by
    intro hkey
    exact hname (congrArg Store.Key.name hkey)
  unfold requested at hget
  rw [Store.get_ensure_of_ne _ _ hkey, get_secret_ensure_accountInput] at hget
  exact h name secret hget

section Issued

variable {secret : Object .secret} {token : String} {ca : Bytes}

def issued (i : Identity) (s : Store) (secret : Object .secret) : Store :=
  (i.requested s).write i.placeholderKey (Store.replaced secret ((i.requested s).version + 1))

theorem replace_requested (h : i.Issues secret token ca) :
    (i.requested s).replace secret =
      .ok (Store.replaced secret ((i.requested s).version + 1), i.issued s secret) := by
  have hkey : Store.Key.of .secret secret.metadata.itemName = i.placeholderKey := by
    rw [h.item]
    rfl
  have hcontains := i.contains_placeholderKey_requested s
  rw [← hkey] at hcontains
  rw [Store.replace_of_contains hcontains, hkey]
  rfl

theorem reachable_issued (hs : s.Reachable) (h : i.Issues secret token ca) :
    (i.issued s secret).Reachable :=
  (reachable_requested hs).replace h.fits (replace_requested h)

theorem contains_issued_of_ne {key : Store.Key} (hkey : key ≠ i.placeholderKey)
    (hkey' : key ≠ i.accountKey) (secret : Object .secret) :
    (i.issued s secret).objects.contains key = s.objects.contains key := by
  unfold issued requested
  rw [Store.contains_write_of_ne _ _ hkey, Store.contains_ensure_of_ne _ i.placeholder hkey,
    Store.contains_ensure_of_ne _ i.accountInput hkey']

theorem contains_accountKey_issued (i : Identity) (s : Store) (secret : Object .secret) :
    (i.issued s secret).objects.contains i.accountKey = true := by
  have hkey : i.accountKey ≠ i.placeholderKey :=
    Store.key_ne (by decide) _ _
  unfold issued
  rw [Store.contains_write_of_ne _ _ hkey]
  exact i.contains_accountKey_requested s

theorem bound_issued (hs : s.Reachable) (hunbound : i.Unbound s) (h : i.Issues secret token ca) :
    i.bound (i.issued s secret) =
      .ok (some (Store.replaced secret ((i.requested s).version + 1))) := by
  apply (reachable_issued hs h).firstIn_of_only Kind.isAlone_secret rfl i.placeholderName
  . show (i.issued s secret).get .secret i.placeholderItem = _
    unfold Store.get issued
    rw [← placeholderKey, Store.get?_write_self]
    apply Store.asKind_stored
    exact h.fits
  . exact h.bound
  . intro name secret' hname hget
    apply isBoundToken_of_get_requested hunbound hname
    rw [← hget]
    apply Store.get_congr
    symm
    apply Store.get?_write_of_ne
    intro hkey
    exact hname (congrArg Store.Key.name hkey)

theorem credentialOf?_replaced (h : i.Issues secret token ca) (version : Nat) :
    credentialOf? (Store.replaced secret version) =
      some ⟨secret.metadata.name, base64Text (Text.Utf8.encode token), base64Text ca⟩ := by
  have hfilled : (base64Text (Text.Utf8.encode token)).isEmpty = false := by
    rw [Bool.eq_false_iff]
    intro hempty
    rw [String.isEmpty_iff] at hempty
    exact base64Text_ne_empty (encode_ne_nil_of_not_allBlank h.notBlank) hempty
  unfold credentialOf? Store.replaced
  simp only [h.tokenData, h.caData, hfilled]
  rfl

theorem issued_of_issues (hs : s.Reachable) (hunbound : i.Unbound s) (h : i.Issues secret token ca) :
    i.Issued (i.issued s secret)
      ⟨secret.metadata.name, base64Text (Text.Utf8.encode token), base64Text ca⟩ := by
  refine ⟨?_, _, bound_issued hs hunbound h, credentialOf?_replaced h _⟩
  exact (reachable_issued hs h).exists_get Kind.isAlone_serviceAccount
    (i.contains_accountKey_issued s secret)

end Issued

end Identity

theorem Config.advanced_issued {c : Config} {s : Store} {secret : Object .secret} {token : String}
    {ca : Bytes} (host : String) (hs : s.Reachable) (hunbound : c.identity.Unbound s)
    (h : c.identity.Issues secret token ca) :
    c.advanced host (c.identity.issued s secret) =
      ⟨.ok (), c.publication.writes (descriptor token ca host c.publication.name)⟩ := by
  apply advanced_of_issued (Identity.issued_of_issues hs hunbound h)
  exact translate_base64Text _ _ _ h.notBlank h.notEmpty

end ClusterRegistration.Registration
