import ClusterRegistration.Proofs.Client.Answer
import ClusterRegistration.Proofs.Json.Rendered
import ClusterRegistration.Registration.Endpoint

namespace ClusterRegistration

open Client Json Server

theorem Http.isHeaderValue_bearer (token : String) : isHeaderValue ("Bearer " ++ token) = isHeaderValue token := by
  unfold isHeaderValue
  rw [Text.Utf8.encode_append, List.all_append]
  rfl

namespace Request

def addressNames : Request → List String
  | .get k item => Place.itemNames k item
  | .list k scope => Place.collectionNames k.definition (Address.scopeOf k scope)
  | .create k input =>
    Place.collectionNames k.definition (Address.scopeOf k (.inNamespace input.metadata.ns))

def addressText (host : String) (r : Request) : String :=
  Address.dropTrailingSlashes host ++ String.ofList (Place.pathOf r.addressNames)

def addressBelow (base : Uri) (r : Request) : Uri :=
  ⟨some "https", base.authority,
    Address.dropTrailingSlashes base.path ++ String.ofList (Place.pathOf r.addressNames), none⟩

def names : Request → List String
  | .get k item => item.name :: Address.scopeNames (Address.scopeOf k (.inNamespace item.ns))
  | .list k scope => Address.scopeNames (Address.scopeOf k scope)
  | .create k input =>
    input.metadata.name :: Address.scopeNames (Address.scopeOf k (.inNamespace input.metadata.ns))

structure IsProper (host : String) (r : Request) : Prop where
  names : ∀ name ∈ r.names, IsDnsName name
  fits : r.Fits
  length : (r.addressText host).utf8ByteSize ≤ Uri.maxLength

end Request

namespace Client.Session

variable {session : Session} {base : Uri} {r : Request}

structure Reaches (session : Session) (base : Uri) : Prop where
  host : Uri.parse session.host = .ok base
  endpoint : Registration.endpointFault? session.host = none
  plain : ∀ c ∈ session.host.toList, c ≠ '?' ∧ c ≠ '#'
  token : ∀ token, session.token = some token → Http.isHeaderValue token = true

theorem scheme_of_endpointFault? {server : String} {uri : Uri} (hparse : Uri.parse server = .ok uri)
    (h : Registration.endpointFault? server = none) : uri.scheme = some "https" := by
  unfold Registration.endpointFault? at h
  rw [hparse] at h
  dsimp only at h
  cases hscheme : uri.scheme with
  | none =>
    rw [hscheme] at h
    cases h
  | some scheme =>
    rw [hscheme] at h
    dsimp only at h
    split at h
    . cases h
    . next heq => simpa using heq

theorem Reaches.scheme_eq (h : session.Reaches base) : base.scheme = some "https" :=
  scheme_of_endpointFault? h.host h.endpoint

theorem Reaches.isHeaderValue (h : session.Reaches base) :
    session.token.all (fun token => Http.isHeaderValue ("Bearer " ++ token)) = true := by
  cases htoken : session.token with
  | none => rfl
  | some token =>
    rw [Option.all_some, Http.isHeaderValue_bearer]
    exact h.token token htoken

theorem address_eq (session : Session) (r : Request) :
    session.address r = Uri.parse (r.addressText session.host) := by
  cases r with
  | get k item =>
    show Uri.parse (Address.collectionText k.definition session.host _ ++ "/" ++ item.name) =
      Uri.parse (Address.dropTrailingSlashes session.host ++ String.ofList (Place.pathOf (_ ++ [item.name])))
    rw [Place.collectionText_eq, Place.pathOf_append]
    congr 1
    rw [← String.toList_inj]
    simp [Place.pathOf]
  | list k scope => exact congrArg Uri.parse (Place.collectionText_eq _ _ _)
  | create k input => exact congrArg Uri.parse (Place.collectionText_eq _ _ _)

theorem isDnsChar_addressNames (h : ∀ name ∈ r.names, IsDnsName name) :
    ∀ name ∈ r.addressNames, ∀ c ∈ name.toList, isDnsChar c = true := by
  cases r with
  | get k item =>
    intro name hname
    rcases List.mem_append.mp hname with hname | hname
    . exact Place.isDnsChar_collectionNames k _ (fun n hn => h n (List.mem_cons_of_mem _ hn)) name hname
    . rw [List.mem_singleton.mp hname]
      exact (h _ List.mem_cons_self).chars
  | list k scope => exact Place.isDnsChar_collectionNames k _ h
  | create k input =>
    exact Place.isDnsChar_collectionNames k _ (fun n hn => h n (List.mem_cons_of_mem _ hn))

theorem head?_pathOf_addressNames (r : Request) :
    (Place.pathOf r.addressNames).head? = some '/' := by
  cases r with
  | get k item =>
    show (Place.pathOf (Place.collectionNames _ _ ++ [item.name])).head? = some '/'
    rw [Place.pathOf_append, List.head?_append, Place.head?_pathOf_collectionNames]
    rfl
  | list k scope => exact Place.head?_pathOf_collectionNames _ _
  | create k input => exact Place.head?_pathOf_collectionNames _ _

theorem parse_addressText (h : session.Reaches base) (hr : r.IsProper session.host) :
    Uri.parse (r.addressText session.host) = .ok (r.addressBelow base) := by
  refine Uri.parse_below h.host h.scheme_eq h.plain ?_ ?_ hr.length
  . rw [String.toList_ofList]
    exact Place.isPathChar_pathOf (isDnsChar_addressNames hr.names)
  . rw [String.toList_ofList]
    exact head?_pathOf_addressNames r

theorem message_eq (h : session.Reaches base) (hr : r.IsProper session.host) :
    session.message r = .ok ⟨method r, r.addressBelow base, session.headers r, body r⟩ := by
  unfold message
  rw [address_eq, parse_addressText h hr]
  dsimp only
  rw [if_pos h.isHeaderValue]

theorem ofUri?_addressBelow (h : session.Reaches base) (hr : r.IsProper session.host) :
    Place.ofUri? base (r.addressBelow base) = Place.ofNames? r.addressNames := by
  unfold Place.ofUri?
  rw [if_pos ⟨h.scheme_eq.symm, rfl, rfl⟩]
  dsimp only [Request.addressBelow]
  rw [String.toList_append, Uri.toList_dropTrailingSlashes, String.toList_ofList]
  exact Place.ofPath?_pathOf _ (isDnsChar_addressNames hr.names)

theorem serve_message (h : session.Reaches base) (hr : r.IsProper session.host) (s : Store)
    {message : Http.Request} (hmessage : session.message r = .ok message) :
    serve base s message = some (replyTo s r, (s.answer r).2) := by
  rw [message_eq h hr] at hmessage
  cases hmessage
  have hplace := ofUri?_addressBelow h hr
  cases r with
  | get k item =>
    rw [Request.addressNames, Place.ofNames?_itemNames] at hplace
    unfold serve
    rw [hplace]
    rfl
  | list k scope =>
    rw [Request.addressNames, Place.ofNames?_collectionNames] at hplace
    unfold serve
    rw [hplace]
    rfl
  | create k input =>
    rw [Request.addressNames, Place.ofNames?_collectionNames] at hplace
    -- The numbers of the object fit their types, so the body is read as it was written.
    have hbody : parse (Text.Utf8.encode input.toJson.render) = .ok input.toJson :=
      parse_render (ObjectInput.writable_toJson 123 hr.fits)
    obtain ⟨hscope, hns⟩ : (Address.confinement k (.inNamespace input.metadata.ns)).isSome =
          k.resource.namespaced ∧
        (Address.confinement k (.inNamespace input.metadata.ns)).getD "" =
          (Store.Key.of k input.metadata.itemName).ns :=
      confinement_inNamespace k input.metadata.itemName
    refine (serve_post s _ hplace hbody hscope).trans ?_
    rw [hns, create_toJson]
    unfold Store.answer Store.create replyTo
    dsimp only
    cases s.objects.contains (Store.Key.of k input.metadata.itemName) with
    | true => rfl
    | false => rfl

variable {σ : Type} {send : Http.Request → StateM σ (Except String Http.Response)} {view : σ → Store}

/--
The messages of a client are answered as by the server of an address that holds some objects.
-/
def IsServed (session : Session) (base : Uri)
    (send : Http.Request → StateM σ (Except String Http.Response)) (view : σ → Store) : Prop :=
  ∀ (w : σ) (r : Request) (message : Http.Request), r.IsProper session.host →
    session.message r = .ok message → ∀ reply s', serve base (view w) message = some (reply, s') →
      (∃ response, ((send message).run w).1 = .ok response ∧ reply.Says response) ∧
        view ((send message).run w).2 = s'

end Client.Session

end ClusterRegistration
