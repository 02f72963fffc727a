import ClusterRegistration.Client.Call
import ClusterRegistration.Proofs.Client.Server
import ClusterRegistration.Proofs.Object.Text
import ClusterRegistration.Proofs.Store.Creation

namespace ClusterRegistration

open Json Server

inductive SameResult {α : Type} : Except ClusterError α → Except ClusterError α → Prop where
  | ok (a : α) : SameResult (.ok a) (.ok a)
  | error {e e' : ClusterError} (hmissing : e.isNotFound = e'.isNotFound)
    (htaken : e.isAlreadyExists = e'.isAlreadyExists) : SameResult (.error e) (.error e')

namespace SameResult

variable {α : Type} {a b : Except ClusterError α}

theorem unlessExists (h : SameResult a b) :
    SameResult (ClusterError.unlessExists a) (ClusterError.unlessExists b) := by
  cases h with
  | ok a => exact .ok (some a)
  | error hmissing htaken =>
    unfold ClusterError.unlessExists
    dsimp only
    rw [htaken]
    split
    . exact .ok none
    . exact .error hmissing htaken

theorem existence (h : SameResult a b) :
    SameResult (ClusterError.existence a) (ClusterError.existence b) := by
  cases h with
  | ok a => exact .ok true
  | error hmissing htaken =>
    unfold ClusterError.existence
    dsimp only
    rw [hmissing]
    split
    . exact .ok false
    . exact .error hmissing htaken

end SameResult

theorem Call.conclude_same (c : Call) {a b : Except ClusterError c.request.Answer}
    (h : SameResult a b) : SameResult (c.conclude a) (c.conclude b) := by
  cases c with
  | ask r => exact h
  | createIfAbsent k input => exact h.unlessExists
  | existence k item => exact h.existence

namespace Client

variable {α : Type} {response : Http.Response} {body : Bytes} {j : Json}

theorem run_of_holds
    {read : {ν : Type} → {m : Type → Type} → [Monad m] → [ValueSource ν m] → ν → m α}
    (hagrees : ∀ {ν : Type} {m : Type → Type} [Monad m] [ValueSource ν m] (A : Agreement ν m),
      A.Agree read read)
    (h : Holds body j) :
    Alike Eq (Json.Reader.run (read ()) body) (read (Item.whole j) : Item.Reader α) := by
  obtain ⟨j', hbody, hsame⟩ := h
  exact (run_alike (hagrees Agreement.ofText) .whole hbody).trans (fun _ _ _ => Eq.trans)
    ((hagrees Agreement.reordering).2 ⟨.whole, j'⟩ ⟨.whole, j⟩ hsame)

theorem isNotFound_of_explains (hstatus : response.status = 404)
    (h : Explains response.body 404 ApiStatus.reasonNotFound) :
    (failureOf response).isNotFound = true ∧ (failureOf response).isAlreadyExists = false := by
  unfold failureOf
  split
  . next s hread =>
    obtain ⟨hcode, hreason⟩ := h s hread
    unfold ApiStatus.isNotFound ApiStatus.isAlreadyExists
    rw [hcode, hreason]
    decide
  . unfold plainStatus ApiStatus.isNotFound ApiStatus.isAlreadyExists
    rw [hstatus]
    exact ⟨rfl, rfl⟩

theorem isAlreadyExists_of_explains (hstatus : response.status = 409)
    (h : Explains response.body 409 ApiStatus.reasonAlreadyExists) :
    (failureOf response).isNotFound = false ∧ (failureOf response).isAlreadyExists = true := by
  unfold failureOf
  split
  . next s hread =>
    obtain ⟨hcode, hreason⟩ := h s hread
    unfold ApiStatus.isNotFound ApiStatus.isAlreadyExists
    rw [hcode, hreason]
    decide
  . unfold plainStatus ApiStatus.isNotFound ApiStatus.isAlreadyExists
    rw [hstatus]
    exact ⟨rfl, rfl⟩

variable {r : Request}

theorem understand_of_success {status : Nat} (hstatus : response.status = status)
    (h : 200 ≤ status ∧ status < 300) :
    understand r response =
      match decodeAnswer r response.body with
      | .ok a => .ok a
      | .error e => .error (.json e) := by
  have hsuccess : response.isSuccess = true := by
    simp [Http.Response.isSuccess, hstatus, h]
  unfold understand
  exact if_pos hsuccess

theorem understand_of_failure {status : Nat} (hstatus : response.status = status)
    (h : 300 ≤ status) : understand r response = .error (.status (failureOf response)) := by
  have hfailure : ¬ response.isSuccess = true := by
    simp [Http.Response.isSuccess, hstatus]
    omega
  unfold understand
  rw [if_neg hfailure]

abbrev Matches (r : Request) (response : Http.Response) (result : Except Store.Error r.Answer) : Prop :=
  SameResult ((understand r response).mapError .client) (result.mapError .store)

theorem matches_of_alike {status : Nat} (hstatus : response.status = status)
    (hsuccess : 200 ≤ status ∧ status < 300) {result : Except Store.Error r.Answer}
    {x : Item.Reader r.Answer} (h : Alike Eq (decodeAnswer r response.body) x)
    (hresult : result = x.mapError .json) : Matches r response result := by
  subst hresult
  unfold Matches
  rw [understand_of_success hstatus hsuccess]
  generalize decodeAnswer r response.body = y at h
  cases h with
  | ok h =>
    subst h
    exact .ok _
  | error e e' => exact .error rfl rfl

theorem matches_of_missing {label : String} (h : Reply.missing.Says response) :
    Matches r response (.error (.notFound label)) := by
  unfold Matches
  rw [understand_of_failure h.1 (by decide)]
  obtain ⟨hmissing, htaken⟩ := isNotFound_of_explains h.1 h.2
  exact .error hmissing htaken

theorem matches_of_taken {label : String} (h : Reply.taken.Says response) :
    Matches r response (.error (.alreadyExists label)) := by
  unfold Matches
  rw [understand_of_failure h.1 (by decide)]
  obtain ⟨hmissing, htaken⟩ := isAlreadyExists_of_explains h.1 h.2
  exact .error hmissing htaken

end Client

namespace Store

theorem asKind_eq (k : Kind) (j : Json) :
    asKind k j = (Object.read k (Item.whole j) : Item.Reader (Object k)).mapError .json := by
  unfold asKind
  cases (Object.read k (Item.whole j) : Item.Reader (Object k)) <;> rfl

end Store

theorem Json.Item.foldlM_readMember_error {ρ α : Type} {fields : List (Record.Field Item Item.Reader ρ)}
    {o : Origin} {p : Record.Partial ρ} {key : String} {ms : List (String × Json)}
    {presence : Record.Presence} {j : Json} {read : Item → Item.Reader α} {set : α → ρ → ρ}
    {e : Record.Mismatch} (hread : read ⟨o, j⟩ = .error e)
    (hfield : fields.find? (·.key == key) = some ⟨key, presence, fun node => set <$> read node⟩)
    (hseen : p.seen.contains key = false) :
    ((key, j) :: ms).foldlM (Item.readMember fields o) p = .error e := by
  have hstep : Item.readMember fields o p (key, j) = .error e := by
    simp only [Item.readMember, Record.Partial.step, hfield, hseen, hread]
    rfl
  rw [List.foldlM_cons, hstep]
  rfl

namespace Server

variable {s : Store} {response : Http.Response} {k : Kind}

theorem matches_lookup (item : ItemName)
    (h : (lookup s (Store.Key.of k item)).Says response) :
    Client.Matches (.get k item) response (s.get k item) := by
  unfold lookup at h
  unfold Store.get
  cases hget : s.objects.get? (Store.Key.of k item) with
  | none =>
    rw [hget] at h
    exact Client.matches_of_missing h
  | some j =>
    rw [hget] at h
    have hread := Client.run_of_holds (fun A => Object.read_agrees A k) h.2
    exact Client.matches_of_alike h.1 (by decide) hread (Store.asKind_eq k j)

theorem mapM_mapError {ε ε' α β : Type} (g : ε → ε') (f : α → Except ε β) (as : List α) :
    as.mapM (fun a => (f a).mapError g) = (as.mapM f).mapError g := by
  induction as with
  | nil => rfl
  | cons a as ih =>
    rw [List.mapM_cons, List.mapM_cons, ih]
    cases f a with
    | error e => rfl
    | ok b => cases as.mapM f <;> rfl

theorem map_mapError {ε ε' α β : Type} (g : ε → ε') (f : α → β) (x : Except ε α) :
    f <$> x.mapError g = (f <$> x).mapError g := by
  cases x <;> rfl

theorem read_collectionJson (js : List Json) :
    (ObjectList.read k (Item.whole (collectionJson k.resource js)) : Item.Reader (ObjectList k)) =
      ObjectList.ofItems <$> js.mapM (fun j => (Object.read k (Item.whole j) : Item.Reader _)) := by
  have hmetadata : (ListMeta.read (⟨.whole, .object [("continue", .null),
      ("resourceVersion", .text k.apiVersion)]⟩ : Item) : Item.Reader ListMeta) = .ok ⟨none, k.apiVersion⟩ := by
    rfl
  show (ObjectList.read k (⟨.whole, .object [("apiVersion", .text k.apiVersion), ("kind", .text k.label),
    ("metadata", .object [("continue", .null), ("resourceVersion", .text k.apiVersion)]),
    ("items", .array js)]⟩ : Item) : Item.Reader (ObjectList k)) = _
  rw [ObjectList.read, Item.record_object]
  rw [Item.foldlM_readMember_text (by rfl) (by rfl)]
  rw [Item.foldlM_readMember_text (by rfl) (by rfl)]
  rw [Item.foldlM_readMember hmetadata (by rfl) (by rfl)]
  cases hitems : js.mapM (fun j => (Object.read k (Item.whole j) : Item.Reader _)) with
  | ok os =>
    have hlist : Item.list (Object.read k) ⟨.whole, .array js⟩ = .ok os := hitems
    rw [Item.foldlM_readMember hlist (by rfl) (by rfl)]
    rfl
  | error e =>
    have hlist : Item.list (Object.read k) ⟨.whole, .array js⟩ = .error e := hitems
    rw [Item.foldlM_readMember_error hlist (by rfl) (by rfl)]
    rfl

theorem confinement_inNamespace (k : Kind) (item : ItemName) :
    (Address.confinement k (.inNamespace item.ns)).isSome = k.resource.namespaced ∧
      (Address.confinement k (.inNamespace item.ns)).getD "" = (Store.Key.of k item).ns := by
  unfold Address.confinement Address.scopeOf Store.Key.of Kind.resource
  cases k.isNamespaced with
  | true => exact ⟨rfl, rfl⟩
  | false => exact ⟨rfl, rfl⟩

theorem collection_eq (scope : Scope) :
    collection s k.resource (Address.confinement k scope) =
      (s.objects.entries.filter (fun e => Store.isIn k scope e.1)).map (·.2) := by
  unfold collection
  congr 2
  funext e
  unfold Store.isIn Address.confinement Address.scopeOf
  cases scope with
  | all =>
    have hall : (if k.isNamespaced then Scope.all else Scope.all) = .all := ite_self _
    rw [hall]
    rfl
  | inNamespace ns =>
    cases k.isNamespaced with
    | true => rfl
    | false => rfl

theorem matches_collection (scope : Scope)
    (h : (Reply.found (collectionJson k.resource (collection s k.resource (Address.confinement k scope)))).Says
      response) :
    Client.Matches (.list k scope) response (s.list k scope) := by
  have hread := Client.run_of_holds (fun A => ObjectList.read_agrees A k) h.2
  refine Client.matches_of_alike h.1 (by decide) hread ?_
  rw [read_collectionJson, collection_eq]
  unfold Store.list
  simp only [Store.asKind_eq]
  rw [mapM_mapError, List.mapM_map, map_mapError]
  rfl

theorem create_toJson (s : Store) (input : ObjectInput k) :
    create s k.resource (Store.Key.of k input.metadata.itemName).ns input.toJson =
      some (if s.objects.contains (Store.Key.of k input.metadata.itemName) then (.taken, s)
        else (.created (Store.stored (Store.created input (s.version + 1))),
          s.write (Store.Key.of k input.metadata.itemName) (Store.created input (s.version + 1)))) := by
  unfold create
  rw [nameOf?_toJson, Option.map_some, canonical_complete]
  rfl

theorem matches_create (input : ObjectInput k) (hfits : k.SpecFits input.spec)
    (h : (if s.objects.contains (Store.Key.of k input.metadata.itemName) then Reply.taken
      else .created (Store.stored (Store.created input (s.version + 1)))).Says response) :
    Client.Matches (.create k input) response (s.answer (.create k input)).1 := by
  unfold Store.answer Store.create
  dsimp only
  cases hcontains : s.objects.contains (Store.Key.of k input.metadata.itemName) with
  | true =>
    rw [hcontains, if_pos rfl] at h
    exact Client.matches_of_taken h
  | false =>
    rw [hcontains, if_neg (by decide)] at h
    have hread := Client.run_of_holds (fun A => Object.read_agrees A k) h.2
    rw [Store.stored, Object.read_canonical (Store.fits_created hfits _)] at hread
    exact Client.matches_of_alike h.1 (by decide) hread rfl

def replyTo (s : Store) : Request → Reply
  | .get k item => lookup s (Store.Key.of k item)
  | .list k scope => .found (collectionJson k.resource (collection s k.resource (Address.confinement k scope)))
  | .create k input =>
    if s.objects.contains (Store.Key.of k input.metadata.itemName) then .taken
    else .created (Store.stored (Store.created input (s.version + 1)))

end Server

def Request.Fits : Request → Prop
  | .create k input => k.SpecFits input.spec
  | _ => True

theorem Server.matches_replyTo {s : Store} {r : Request} {response : Http.Response} (hfits : r.Fits)
    (h : (replyTo s r).Says response) : Client.Matches r response (s.answer r).1 := by
  cases r with
  | get k item => exact matches_lookup item h
  | list k scope => exact matches_collection scope h
  | create k input => exact matches_create input hfits h

end ClusterRegistration
