import ClusterRegistration.Object.Status
import ClusterRegistration.Proofs.Json.Rendered
import ClusterRegistration.Proofs.Object.Stored

namespace ClusterRegistration

open Json

namespace Json

variable {α : Type} {n : Nat}

theorem writable_ofOption (write : α → Json) (a? : Option α) (h : ∀ a ∈ a?, (write a).Writable n) :
    (ofOption write a?).Writable n := by
  cases a? with
  | none => trivial
  | some a => exact h a rfl

theorem writable_integer {low high i : Int} (h : low ≤ i ∧ i ≤ high) (hlow : -9223372036854775808 ≤ low)
    (hhigh : high ≤ 18446744073709551615) : (Json.integer i).Writable n :=
  ⟨Int.le_trans hlow h.1, Int.le_trans h.2 hhigh⟩

theorem writable_array (write : α → Json) (as : List α) (h : ∀ a ∈ as, (write a).Writable n) :
    (Json.array (as.map write)).Writable (n + 1) := by
  show WritableItems n (as.map write)
  induction as with
  | nil => trivial
  | cons a as ih =>
    exact ⟨h a List.mem_cons_self, ih (fun a' ha' => h a' (List.mem_cons_of_mem a ha'))⟩

theorem writableMembers_append {ms ms' : List (String × Json)} (h : WritableMembers n ms)
    (h' : WritableMembers n ms') : WritableMembers n (ms ++ ms') := by
  induction ms with
  | nil => exact h'
  | cons m ms ih => exact ⟨h.1, ih h.2⟩

theorem writable_texts (n : Nat) (ss : List String) : (Json.array (ss.map .text)).Writable (n + 1) :=
  writable_array _ ss (fun _ _ => trivial)

end Json

theorem Dictionary.writable_toJson (n : Nat) (d : Dictionary) : d.toJson.Writable (n + 1) := by
  refine ⟨?_, ?_⟩
  . rw [List.map_map]
    refine List.pairwise_map.mpr (d.sorted.imp (fun {a b} hlt heq => ?_))
    have heq : a.1 = b.1 := heq
    rw [heq, (OrderedMap.compare_eq_iff b.1 b.1).mpr rfl] at hlt
    cases hlt
  . generalize d.entries = es
    induction es with
    | nil => trivial
    | cons e es ih => exact ⟨trivial, ih⟩

theorem LocalReference.writable_toJson (n : Nat) (r : LocalReference) : r.toJson.Writable (n + 1) :=
  ⟨by simp, trivial, trivial⟩

theorem OwnerReference.writable_toJson (n : Nat) (r : OwnerReference) : r.toJson.Writable (n + 1) :=
  ⟨by simp, trivial, trivial, writable_ofOption _ _ (fun _ _ => trivial), trivial, trivial, trivial,
    trivial⟩

theorem InputMeta.writable_toJson (n : Nat) (r : InputMeta) : r.toJson.Writable (n + 3) :=
  ⟨by simp, trivial, r.labels.writable_toJson _, trivial,
    writable_array _ _ (fun r _ => r.writable_toJson _), writable_texts _ _,
    r.annotations.writable_toJson _, trivial⟩

def ObjectMeta.names : List String :=
  ["name", "namespace", "uid", "creationTimestamp", "generation", "resourceVersion", "deletionTimestamp",
    "labels", "ownerReferences", "annotations", "finalizers"]

theorem ObjectMeta.writable_toJson (n : Nat) {m : ObjectMeta} (h : m.Fits) : m.toJson.Writable (n + 3) :=
  ⟨by simp, trivial, trivial, trivial, trivial,
    writable_ofOption _ _ (fun g hg => writable_integer (h g hg) (by decide) (by decide)), trivial,
    writable_ofOption _ _ (fun _ _ => trivial), m.labels.writable_toJson _,
    writable_array _ _ (fun r _ => r.writable_toJson _), m.annotations.writable_toJson _,
    writable_texts _ _, trivial⟩

theorem ListMeta.writable_toJson (n : Nat) (m : ListMeta) : m.toJson.Writable (n + 1) :=
  ⟨by simp, writable_ofOption _ _ (fun _ _ => trivial), trivial, trivial⟩

theorem StatusDetails.writable_toJson (n : Nat) (d : StatusDetails) : d.toJson.Writable (n + 1) :=
  ⟨by simp, trivial, writable_ofOption _ _ (fun _ _ => trivial), trivial, trivial, trivial⟩

namespace ApiStatus

def Fits (s : ApiStatus) : Prop :=
  ∀ code ∈ s.code, 0 ≤ code ∧ code ≤ 65535

def names : List String :=
  ["apiVersion", "code", "details", "kind", "message", "reason", "status"]

theorem writable_toJson (n : Nat) {s : ApiStatus} (h : s.Fits) : s.toJson.Writable (n + 2) :=
  ⟨by simp, trivial,
    writable_ofOption _ _ (fun code hcode => writable_integer (h code hcode) (by decide) (by decide)),
    writable_ofOption _ _ (fun d _ => d.writable_toJson _), trivial,
    writable_ofOption _ _ (fun _ _ => trivial), writable_ofOption _ _ (fun _ _ => trivial), trivial,
    trivial⟩

end ApiStatus

namespace Kind

theorem writable_specToJson (n : Nat) {k : Kind} {spec : k.Spec} (h : k.SpecFits spec) :
    (k.specToJson spec).Writable (n + 2) := by
  cases k with
  | serviceAccount | secret | execCredential => exact ⟨by simp, trivial⟩
  | clientConfig => exact ⟨by simp, trivial, LocalReference.writable_toJson _ _, trivial⟩
  | node | strictNode => exact ⟨by simp, trivial, trivial⟩
  | widget => exact ⟨by simp, writable_integer h (by decide) (by decide), writable_texts _ _, trivial⟩

theorem writable_statusToJson (n : Nat) (k : Kind) (status : k.Status) :
    (k.statusToJson status).Writable (n + 1) := by
  cases k with
  | execCredential => exact ⟨by simp, trivial, trivial, trivial⟩
  | widget => exact ⟨by simp, trivial, trivial⟩
  | serviceAccount | secret | clientConfig | node | strictNode => exact ⟨by simp, trivial⟩

theorem writable_headerMembers (n : Nat) (k : Kind) (header : k.Header) :
    WritableMembers (n + 2) (k.headerMembers header) := by
  cases k with
  | serviceAccount =>
    obtain ⟨secrets⟩ := header
    cases secrets with
    | nil => trivial
    | cons r secrets => exact ⟨writable_array _ _ (fun r _ => r.writable_toJson _), trivial⟩
  | secret => exact ⟨Dictionary.writable_toJson _ _, trivial, trivial⟩
  | execCredential | clientConfig | node | strictNode | widget => trivial

def headerNames : Kind → List String
  | serviceAccount => ["secrets"]
  | secret => ["data", "type"]
  | execCredential | clientConfig | node | strictNode | widget => []

theorem headerMembers_sublist (k : Kind) (header : k.Header) :
    ((k.headerMembers header).map (·.1)).Sublist k.headerNames := by
  cases k with
  | serviceAccount =>
    obtain ⟨secrets⟩ := header
    cases secrets with
    | nil => exact List.nil_sublist _
    | cons r secrets => exact List.Sublist.refl _
  | secret => exact List.Sublist.refl _
  | execCredential | clientConfig | node | strictNode | widget => exact List.Sublist.refl _

theorem mem_headerNames {k : Kind} (header : k.Header) {m : String × Json}
    (h : m ∈ k.headerMembers header) : m.1 ∈ k.headerNames :=
  (k.headerMembers_sublist header).subset (List.mem_map_of_mem h)

end Kind

def Object.names (k : Kind) : List String :=
  ["apiVersion", "kind", "metadata", "spec"] ++ k.headerNames ++ ["status"]

theorem Object.writable_toJson (n : Nat) {k : Kind} {o : Object k} (h : o.Fits) :
    o.toJson.Writable (n + 4) := by
  refine ⟨?_, ?_⟩
  . have hnames : (Object.names k).Nodup := by
      cases k <;> decide
    refine hnames.sublist ?_
    rw [List.map_append, List.map_append]
    exact ((List.Sublist.refl _).append (k.headerMembers_sublist o.header)).append (.refl _)
  . refine writableMembers_append (writableMembers_append ?_ (k.writable_headerMembers _ _)) ?_
    . exact ⟨trivial, trivial, ObjectMeta.writable_toJson _ h.1, Kind.writable_specToJson _ h.2, trivial⟩
    . exact ⟨k.writable_statusToJson _ _, trivial⟩

def ObjectInput.names (k : Kind) : List String :=
  ["apiVersion", "kind", "metadata", "spec"] ++ k.headerNames

theorem ObjectInput.writable_toJson (n : Nat) {k : Kind} {o : ObjectInput k} (h : k.SpecFits o.spec) :
    o.toJson.Writable (n + 4) := by
  refine ⟨?_, ?_⟩
  . have hnames : (ObjectInput.names k).Nodup := by
      cases k <;> decide
    refine hnames.sublist ?_
    rw [List.map_append]
    exact (List.Sublist.refl _).append (k.headerMembers_sublist o.header)
  . refine writableMembers_append ?_ (k.writable_headerMembers _ _)
    exact ⟨trivial, trivial, InputMeta.writable_toJson _ _, Kind.writable_specToJson _ h, trivial⟩

def ObjectList.Fits {k : Kind} (l : ObjectList k) : Prop :=
  ∀ o ∈ l.items, o.Fits

def ObjectList.names : List String :=
  ["apiVersion", "kind", "metadata", "items"]

theorem ObjectList.writable_toJson (n : Nat) {k : Kind} {l : ObjectList k} (h : l.Fits) :
    l.toJson.Writable (n + 6) :=
  ⟨by simp, trivial, trivial, ListMeta.writable_toJson _ _,
    writable_array _ _ (fun o ho => Object.writable_toJson _ (h o ho)), trivial⟩

end ClusterRegistration
