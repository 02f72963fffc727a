import ClusterRegistration.Proofs.Client.Place
import ClusterRegistration.Proofs.Object.Written

/-!
This module contains what an API server makes of messages. It knows what sorts of objects there are, but
not how clients read them: what it keeps, returns and creates are JSON values.
-/

namespace ClusterRegistration.Server

open Json

inductive Reply where
  | found (j : Json)
  | created (j : Json)
  | missing
  | taken

def Holds (body : Bytes) (j : Json) : Prop :=
  ∃ j', parse body = .ok j' ∧ Same j' j

def Explains (body : Bytes) (code : Int) (reason : String) : Prop :=
  ∀ s, Json.Reader.run (ApiStatus.read ()) body = .ok s → s.code = some code ∧ s.reason = some reason

def Reply.Says (response : Http.Response) : Reply → Prop
  | .found j => response.status = 200 ∧ Holds response.body j
  | .created j => response.status = 201 ∧ Holds response.body j
  | .missing => response.status = 404 ∧ Explains response.body 404 ApiStatus.reasonNotFound
  | .taken => response.status = 409 ∧ Explains response.body 409 ApiStatus.reasonAlreadyExists

def completeMetadata (ns : String) (version : Nat) : Json → Json
  | .object members => .object (members ++ [
      ("creationTimestamp", .text ""),
      ("deletionTimestamp", .null),
      ("generation", .null),
      ("namespace", .text ns),
      ("resourceVersion", .text (toString version)),
      ("uid", .text (Store.uidOf version))])
  | j => j

def complete (r : Resource) (ns : String) (version : Nat) : Json → Json
  | .object members =>
    let own := members.filter (·.1 != "status")
    .object (own.map (fun m =>
      if m.1 = "metadata" then (m.1, completeMetadata ns version m.2) else m) ++ [("status", r.status)])
  | j => j

def lookup (s : Store) (key : Store.Key) : Reply :=
  match s.objects.get? key with
  | some j => .found j
  | none => .missing

def nameOf? (body : Json) : Option String :=
  match (body.get? "metadata").bind (Json.get? "name") with
  | some (.text name) => some name
  | _ => none

def create (s : Store) (r : Resource) (ns : String) (body : Json) : Option (Reply × Store) :=
  (nameOf? body).map fun name =>
    let key : Store.Key := ⟨r.definition, ns, name⟩
    if s.objects.contains key then (.taken, s)
    else
      let j := (complete r ns (s.version + 1) body).canonical
      (.created j, ⟨s.objects.insert key j, s.version + 1⟩)

def collection (s : Store) (r : Resource) (ns : Option String) : List Json :=
  (s.objects.entries.filter
    (fun e => e.1.definition = r.definition && ns.all (fun ns => e.1.ns = ns))).map (·.2)

def collectionJson (r : Resource) (items : List Json) : Json :=
  .object [
    ("apiVersion", .text r.definition.apiVersion),
    ("kind", .text r.definition.kind),
    ("metadata", .object [
      ("continue", .null),
      ("resourceVersion", .text r.definition.apiVersion)]),
    ("items", .array items)]

def serve (base : Uri) (s : Store) (message : Http.Request) : Option (Reply × Store) :=
  match message.method, Place.ofUri? base message.uri with
  | .get, some (.item r ns name) => some (lookup s ⟨r.definition, ns, name⟩, s)
  | .get, some (.collection r ns) => some (.found (collectionJson r (collection s r ns)), s)
  | .post, some (.collection r ns) =>
    match parse message.body with
    | .ok body => if ns.isSome = r.namespaced then create s r (ns.getD "") body else none
    | .error _ => none
  | _, _ => none

theorem serve_post {base uri : Uri} {r : Resource} {ns : Option String} {bytes : Bytes} {body : Json}
    (s : Store) (headers : List Http.Header) (hplace : Place.ofUri? base uri = some (.collection r ns))
    (hbody : parse bytes = .ok body) (hns : ns.isSome = r.namespaced) :
    serve base s ⟨.post, uri, headers, bytes⟩ = create s r (ns.getD "") body := by
  unfold serve
  dsimp only
  rw [hplace]
  dsimp only
  rw [hbody]
  dsimp only
  rw [if_pos hns]

section Creation

variable {k : Kind} (input : ObjectInput k)

theorem nameOf?_toJson : nameOf? input.toJson = some input.metadata.name := by
  rfl

theorem canonical_completeMetadata (m : InputMeta) (ns : String) (version : Nat) :
    (completeMetadata ns version m.toJson).canonical =
      ({ (default : ObjectMeta) with
        name := m.name
        ns := ns
        uid := Store.uidOf version
        resourceVersion := toString version
        labels := m.labels
        annotations := m.annotations
        owners := m.owners
        finalizers := m.finalizers } : ObjectMeta).toJson.canonical := by
  rw [ObjectMeta.canonical_toJson]
  simp only [InputMeta.toJson, completeMetadata, canonical, List.cons_append, List.nil_append,
    canonicalMembers, canonicalItems_map, Dictionary.canonical_toJson, OwnerReference.canonical_toJson]
  generalize m.labels.toJson = labels
  generalize m.annotations.toJson = annotations
  generalize toString version = version'
  generalize Store.uidOf version = uid
  cbv

theorem key_headerMembers (header : k.Header) :
    ∀ m ∈ k.headerMembers header, m.1 ≠ "status" ∧ m.1 ≠ "metadata" := by
  intro m hm
  have hnames : "status" ∉ k.headerNames ∧ "metadata" ∉ k.headerNames := by
    cases k <;> decide
  have hm := Kind.mem_headerNames header hm
  exact ⟨fun h => hnames.1 (h ▸ hm), fun h => hnames.2 (h ▸ hm)⟩

theorem complete_toJson (version : Nat) (ns : String) :
    complete k.resource ns version input.toJson =
      .object ([
        ("apiVersion", .text input.apiVersion),
        ("kind", .text input.kind),
        ("metadata", completeMetadata ns version input.metadata.toJson),
        ("spec", k.specToJson input.spec)] ++ k.headerMembers input.header ++
        [("status", k.statusToJson default)]) := by
  have hfilter : (k.headerMembers input.header).filter (·.1 != "status") = k.headerMembers input.header := by
    rw [List.filter_eq_self]
    intro m hm
    simp [(key_headerMembers input.header m hm).1]
  have hmap : (k.headerMembers input.header).map (fun m =>
      if m.1 = "metadata" then (m.1, completeMetadata ns version m.2) else m) =
        k.headerMembers input.header := by
    rw [List.map_congr_left (g := id), List.map_id]
    intro m hm
    exact if_neg (key_headerMembers input.header m hm).2
  unfold complete ObjectInput.toJson
  dsimp only
  rw [List.filter_append, hfilter, List.map_append, hmap]
  rfl

theorem canonical_complete (version : Nat) :
    (complete k.resource (Store.Key.of k input.metadata.itemName).ns version input.toJson).canonical =
      Store.stored (Store.created input version) := by
  rw [complete_toJson]
  unfold Store.stored Object.toJson
  simp only [canonical, Object.canonicalMembers_append, canonicalMembers, canonical_completeMetadata]
  rfl

end Creation

end ClusterRegistration.Server
