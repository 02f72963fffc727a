import ClusterRegistration.Json.ValueSource
import ClusterRegistration.OrderedMap

namespace ClusterRegistration

open Record Json

variable {ν : Type} {m : Type → Type} [Monad m] [ValueSource ν m]

namespace Dictionary

def read (node : ν) : m Dictionary :=
  OrderedMap.ofList <$>
    ValueSource.object "a map" (fun es key node => return es ++ [(key, ← Source.text node)]) [] node

def toJson (d : Dictionary) : Json :=
  .object (d.entries.map (fun e => (e.1, .text e.2)))

end Dictionary

structure LocalReference where
  name : String
deriving DecidableEq, Repr, Inhabited

namespace LocalReference

def read : ν → m LocalReference :=
  Source.record "LocalObjectReference"
    [.required "name" Source.text (fun s r => { r with name := s })] default

def toJson (r : LocalReference) : Json :=
  .object [("name", .text r.name)]

end LocalReference

structure OwnerReference where
  apiVersion : String
  blockOwnerDeletion : Bool
  controller : Option Bool
  kind : String
  name : String
  uid : String
deriving DecidableEq, Repr, Inhabited

namespace OwnerReference

def read : ν → m OwnerReference :=
  Source.record "OwnerReferences" [
    .required "apiVersion" Source.text (fun s r => { r with apiVersion := s }),
    .defaulted "blockOwnerDeletion" Source.flag (fun b r => { r with blockOwnerDeletion := b }),
    .optional "controller" Source.flag (fun b r => { r with controller := b }),
    .required "kind" Source.text (fun s r => { r with kind := s }),
    .required "name" Source.text (fun s r => { r with name := s }),
    .required "uid" Source.text (fun s r => { r with uid := s })] default

def toJson (r : OwnerReference) : Json :=
  .object [
    ("apiVersion", .text r.apiVersion),
    ("blockOwnerDeletion", .flag r.blockOwnerDeletion),
    ("controller", Json.ofOption .flag r.controller),
    ("kind", .text r.kind),
    ("name", .text r.name),
    ("uid", .text r.uid)]

end OwnerReference

structure ItemName where
  name : String
  ns : String
deriving DecidableEq, Repr, Inhabited

namespace ItemName

def read : ν → m ItemName :=
  Source.record "ItemMeta" [
    .required "name" Source.text (fun s r => { r with name := s }),
    .required "namespace" Source.text (fun s r => { r with ns := s })] default

def toJson (r : ItemName) : Json :=
  .object [("name", .text r.name), ("namespace", .text r.ns)]

def text (r : ItemName) : String :=
  r.name ++ ":" ++ r.ns

end ItemName

structure InputMeta where
  name : String
  labels : Dictionary
  ns : String
  owners : List OwnerReference
  finalizers : List String
  annotations : Dictionary
deriving DecidableEq, Inhabited

namespace InputMeta

def read : ν → m InputMeta :=
  Source.record "InputObjectMeta" [
    .required "name" Source.text (fun s r => { r with name := s }),
    .required "labels" Dictionary.read (fun d r => { r with labels := d }),
    .required "namespace" Source.text (fun s r => { r with ns := s }),
    .required "ownerReferences" (Source.list OwnerReference.read) (fun l r => { r with owners := l }),
    .required "finalizers" (Source.list Source.text) (fun l r => { r with finalizers := l }),
    .required "annotations" Dictionary.read (fun d r => { r with annotations := d })] default

def toJson (r : InputMeta) : Json :=
  .object [
    ("name", .text r.name),
    ("labels", r.labels.toJson),
    ("namespace", .text r.ns),
    ("ownerReferences", .array (r.owners.map OwnerReference.toJson)),
    ("finalizers", .array (r.finalizers.map .text)),
    ("annotations", r.annotations.toJson)]

def named (name ns : String) : InputMeta :=
  { (default : InputMeta) with name := name, ns := ns }

def annotate (r : InputMeta) (key value : String) : InputMeta :=
  { r with annotations := r.annotations.insert key value }

def itemName (r : InputMeta) : ItemName :=
  ⟨r.name, r.ns⟩

def text (r : InputMeta) : String :=
  r.itemName.text

end InputMeta

structure ObjectMeta where
  name : String
  ns : String
  uid : String
  creationTimestamp : String
  generation : Option Int
  resourceVersion : String
  deletionTimestamp : Option String
  labels : Dictionary
  owners : List OwnerReference
  annotations : Dictionary
  finalizers : List String
deriving DecidableEq, Inhabited

namespace ObjectMeta

def read : ν → m ObjectMeta :=
  Source.record "ObjectMeta" [
    .defaulted "name" Source.text (fun s r => { r with name := s }),
    .defaulted "namespace" Source.text (fun s r => { r with ns := s }),
    .defaulted "uid" Source.text (fun s r => { r with uid := s }),
    .defaulted "creationTimestamp" Source.text (fun s r => { r with creationTimestamp := s }),
    .defaulted "generation" (Source.optional (ValueSource.integer (-2147483648) 2147483647 "i32"))
      (fun i r => { r with generation := i }),
    .defaulted "resourceVersion" Source.text (fun s r => { r with resourceVersion := s }),
    .defaulted "deletionTimestamp" (Source.optional Source.text)
      (fun s r => { r with deletionTimestamp := s }),
    .defaulted "labels" Dictionary.read (fun d r => { r with labels := d }),
    .defaulted "ownerReferences" (Source.list OwnerReference.read)
      (fun l r => { r with owners := l }),
    .defaulted "annotations" Dictionary.read (fun d r => { r with annotations := d }),
    .defaulted "finalizers" (Source.list Source.text) (fun l r => { r with finalizers := l })]
    default

def toJson (r : ObjectMeta) : Json :=
  .object [
    ("name", .text r.name),
    ("namespace", .text r.ns),
    ("uid", .text r.uid),
    ("creationTimestamp", .text r.creationTimestamp),
    ("generation", Json.ofOption Json.integer r.generation),
    ("resourceVersion", .text r.resourceVersion),
    ("deletionTimestamp", Json.ofOption .text r.deletionTimestamp),
    ("labels", r.labels.toJson),
    ("ownerReferences", .array (r.owners.map OwnerReference.toJson)),
    ("annotations", r.annotations.toJson),
    ("finalizers", .array (r.finalizers.map .text))]

def itemName (r : ObjectMeta) : ItemName :=
  ⟨r.name, r.ns⟩

def text (r : ObjectMeta) : String :=
  r.itemName.text

end ObjectMeta

structure ListMeta where
  continuation : Option String
  resourceVersion : String
deriving DecidableEq, Repr, Inhabited

namespace ListMeta

def read : ν → m ListMeta :=
  Source.record "ListMetadata" [
    .optional "continue" Source.text (fun s r => { r with continuation := s }),
    .defaulted "resourceVersion" Source.text (fun s r => { r with resourceVersion := s })] default

def toJson (r : ListMeta) : Json :=
  .object [
    ("continue", Json.ofOption .text r.continuation),
    ("resourceVersion", .text r.resourceVersion)]

end ListMeta

end ClusterRegistration
