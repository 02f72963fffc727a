import ClusterRegistration.Json.Item
import ClusterRegistration.Object.Kind

/-!
This module contains API objects: as they are created, as they are returned, and lists of them. The
header of an object has no member of its own; its fields stand among those of the object.
-/

namespace ClusterRegistration

open Record Json

def Kind.headerOf {m : Type → Type} [Monad m] [Refusal m] (k : Kind)
    (others : List (String × Json)) : m k.Header :=
  Refusal.ofExcept (k.readHeader (Json.Item.buffered (.object others)))

variable {ν : Type} {m : Type → Type} [Monad m] [ValueSource ν m]

structure Object (k : Kind) where
  apiVersion : String
  kind : String
  metadata : ObjectMeta
  spec : k.Spec
  header : k.Header
  status : k.Status

structure ObjectInput (k : Kind) where
  apiVersion : String
  kind : String
  metadata : InputMeta
  spec : k.Spec
  header : k.Header

structure ObjectList (k : Kind) where
  apiVersion : String
  kind : String
  metadata : ListMeta
  items : List (Object k)

structure WithOthers (ρ : Type) where
  value : ρ
  others : List (String × Json)

namespace WithOthers

def field {ρ : Type} (f : Field ν m ρ) : Field ν m (WithOthers ρ) :=
  ⟨f.key, f.presence, fun node => (fun set r => { r with value := set r.value }) <$> f.read node⟩

def keep {ρ : Type} (key : String) (node : ν) : m (WithOthers ρ → WithOthers ρ) := do
  let j ← ValueSource.value node
  pure (fun r => { r with others := r.others ++ [(key, j)] })

def read {ρ : Type} (name : String) (fields : List (Field ν m ρ)) (start : ρ) (node : ν) :
    m (WithOthers ρ) := do
  let fields := fields.map field
  let p ← ValueSource.object (expectedRecord name) (Partial.step keep fields)
    (Partial.start ⟨start, []⟩) node
  p.finish fields

end WithOthers

namespace Object

variable {k : Kind}

instance : Inhabited (Object k) :=
  ⟨"", "", default, default, default, default⟩

def blank (k : Kind) : Object k :=
  { (default : Object k) with apiVersion := k.apiVersion, kind := k.label }

def read (k : Kind) (node : ν) : m (Object k) := do
  let r ← WithOthers.read "K8Obj" [
    .defaulted "apiVersion" Source.text (fun s r => { r with apiVersion := s }),
    .defaulted "kind" Source.text (fun s r => { r with kind := s }),
    .defaulted "metadata" ObjectMeta.read (fun s r => { r with metadata := s }),
    .defaulted "spec" k.readSpec (fun s r => { r with spec := s }),
    .defaulted "status" k.readStatus (fun s r => { r with status := s })] (blank k) node
  let header ← k.headerOf r.others
  pure { r.value with header := header }

def toJson (o : Object k) : Json :=
  .object ([
    ("apiVersion", .text o.apiVersion),
    ("kind", .text o.kind),
    ("metadata", o.metadata.toJson),
    ("spec", k.specToJson o.spec)] ++ k.headerMembers o.header ++
    [("status", k.statusToJson o.status)])

end Object

namespace ObjectInput

variable {k : Kind}

instance : Inhabited (ObjectInput k) :=
  ⟨"", "", default, default, default⟩

def new (metadata : InputMeta) (spec : k.Spec) (header : k.Header := default) : ObjectInput k :=
  ⟨k.apiVersion, k.label, metadata, spec, header⟩

def read (k : Kind) (node : ν) : m (ObjectInput k) := do
  let r ← WithOthers.read "K8SpecObj" [
    .required "apiVersion" Source.text (fun s r => { r with apiVersion := s }),
    .required "kind" Source.text (fun s r => { r with kind := s }),
    .required "metadata" InputMeta.read (fun s r => { r with metadata := s }),
    .required "spec" k.readSpec (fun s r => { r with spec := s })] (default : ObjectInput k) node
  let header ← k.headerOf r.others
  pure { r.value with header := header }

def toJson (o : ObjectInput k) : Json :=
  .object ([
    ("apiVersion", .text o.apiVersion),
    ("kind", .text o.kind),
    ("metadata", o.metadata.toJson),
    ("spec", k.specToJson o.spec)] ++ k.headerMembers o.header)

end ObjectInput

namespace ObjectList

variable {k : Kind}

def ofItems (items : List (Object k)) : ObjectList k :=
  ⟨k.apiVersion, k.label, ⟨none, k.apiVersion⟩, items⟩

instance : Inhabited (ObjectList k) :=
  ⟨ofItems []⟩

def read (k : Kind) : ν → m (ObjectList k) :=
  Source.record "K8List" [
    .required "apiVersion" Source.text (fun s r => { r with apiVersion := s }),
    .required "kind" Source.text (fun s r => { r with kind := s }),
    .required "metadata" ListMeta.read (fun s r => { r with metadata := s }),
    .required "items" (Source.list (Object.read k)) (fun s r => { r with items := s })] default

def toJson (l : ObjectList k) : Json :=
  .object [
    ("apiVersion", .text l.apiVersion),
    ("kind", .text l.kind),
    ("metadata", l.metadata.toJson),
    ("items", .array (l.items.map Object.toJson))]

end ObjectList

end ClusterRegistration
