import ClusterRegistration.Client.Request
import ClusterRegistration.Json.Canonical
import ClusterRegistration.Store.Key

/-!
This module contains stores of objects, which follow the rules of an API server: an object is created
under a key once, keeps its identity, and gets a new version whenever it is written.
-/

namespace ClusterRegistration

/--
The objects of a cluster, and the version of the last write.
-/
structure Store where
  objects : OrderedMap Store.Key Json
  version : Nat
deriving Inhabited

namespace Store

def empty : Store :=
  ⟨OrderedMap.empty, 0⟩

def size (s : Store) : Nat :=
  s.objects.size

variable {k : Kind}

def stored (o : Object k) : Json :=
  o.toJson.canonical

def asKind (k : Kind) (j : Json) : Except Error (Object k) :=
  match (Object.read k (Json.Item.whole j) : Json.Item.Reader (Object k)) with
  | .ok o => .ok o
  | .error m => .error (.json m)

def get (s : Store) (k : Kind) (item : ItemName) : Except Error (Object k) :=
  match s.objects.get? (Key.of k item) with
  | some j => asKind k j
  | none => .error (.notFound (Key.label k (Key.of k item)))

def isIn (k : Kind) (scope : Scope) (key : Key) : Bool :=
  key.definition = k.definition &&
    match scope with
    | .all => true
    | .inNamespace ns => !k.isNamespaced || key.ns = ns

def list (s : Store) (k : Kind) (scope : Scope) : Except Error (ObjectList k) :=
  ObjectList.ofItems <$>
    (s.objects.entries.filter (fun e => isIn k scope e.1)).mapM (fun e => asKind k e.2)

def uidOf (version : Nat) : String :=
  let digits := Nat.toDigits 16 version
  String.ofList (List.replicate (16 - digits.length) '0' ++ digits)

/--
The object that a store makes of an input. The server sets identity and version; the client does not
set the status.
-/
def created (input : ObjectInput k) (version : Nat) : Object k :=
  { apiVersion := input.apiVersion
    kind := input.kind
    metadata :=
      { (default : ObjectMeta) with
        name := input.metadata.name
        ns := (Key.of k input.metadata.itemName).ns
        uid := uidOf version
        resourceVersion := toString version
        labels := input.metadata.labels
        annotations := input.metadata.annotations
        owners := input.metadata.owners
        finalizers := input.metadata.finalizers }
    spec := input.spec
    header := input.header
    status := default }

def write (s : Store) (key : Key) (o : Object k) : Store :=
  ⟨s.objects.insert key (stored o), s.version + 1⟩

def create (s : Store) (input : ObjectInput k) : Except Error (Object k × Store) :=
  let key := Key.of k input.metadata.itemName
  if s.objects.contains key then
    .error (.alreadyExists (Key.label k key))
  else
    let o := created input (s.version + 1)
    .ok (o, s.write key o)

def replace (s : Store) (o : Object k) : Except Error (Object k × Store) :=
  let key := Key.of k o.metadata.itemName
  if s.objects.contains key then
    let o := { o with metadata := { o.metadata with resourceVersion := toString (s.version + 1) } }
    .ok (o, s.write key o)
  else
    .error (.notFound (Key.label k key))

def answer (s : Store) : (r : Request) → Except Error r.Answer × Store
  | .get k item => (s.get k item, s)
  | .list k scope => (s.list k scope, s)
  | .create _ input =>
    match s.create input with
    | .ok (o, s') => (.ok o, s')
    | .error e => (.error e, s)

def issue (s : Store) (item : ItemName) (data : Dictionary) :
    Except Error (Object .secret × Store) := do
  let secret ← s.get .secret item
  let header : SecretHeader := secret.header
  let filled := data.entries.foldl (fun d e => d.insert e.1 e.2) header.data
  s.replace { secret with header := ({ header with data := filled } : SecretHeader) }

end Store

end ClusterRegistration
