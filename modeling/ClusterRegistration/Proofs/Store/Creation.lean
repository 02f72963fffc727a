import ClusterRegistration.Proofs.Object.Stored

namespace ClusterRegistration.Store

variable {k : Kind}

def inputKey (input : ObjectInput k) : Key :=
  Key.of k input.metadata.itemName

theorem key_ne {k' : Kind} (h : k.definition ≠ k'.definition) (item item' : ItemName) :
    Key.of k item ≠ Key.of k' item' := by
  intro hkey
  exact h (congrArg Key.definition hkey)

def ensure (s : Store) (input : ObjectInput k) : Store :=
  match s.create input with
  | .ok (_, s') => s'
  | .error _ => s

theorem create_of_contains {s : Store} {input : ObjectInput k}
    (h : s.objects.contains (inputKey input) = true) :
    s.create input = .error (.alreadyExists (Key.label k (inputKey input))) := by
  unfold create
  exact if_pos h

theorem create_of_absent {s : Store} {input : ObjectInput k}
    (h : s.objects.contains (inputKey input) = false) :
    s.create input = .ok (created input (s.version + 1),
      s.write (inputKey input) (created input (s.version + 1))) := by
  unfold create
  apply if_neg
  rw [Bool.not_eq_true]
  exact h

theorem ensure_of_contains {s : Store} {input : ObjectInput k}
    (h : s.objects.contains (inputKey input) = true) : s.ensure input = s := by
  rw [ensure, create_of_contains h]

theorem ensure_of_absent {s : Store} {input : ObjectInput k}
    (h : s.objects.contains (inputKey input) = false) :
    s.ensure input = s.write (inputKey input) (created input (s.version + 1)) := by
  rw [ensure, create_of_absent h]

theorem get?_write_self (s : Store) (key : Key) (o : Object k) :
    (s.write key o).objects.get? key = some (stored o) := by
  apply OrderedMap.get?_insert_self

theorem get?_write_of_ne (s : Store) {key key' : Key} (o : Object k) (h : key' ≠ key) :
    (s.write key o).objects.get? key' = s.objects.get? key' := by
  apply OrderedMap.get?_insert_of_ne
  exact h

theorem contains_write_self (s : Store) (key : Key) (o : Object k) :
    (s.write key o).objects.contains key = true :=
  OrderedMap.contains_of_get? (get?_write_self s key o)

theorem contains_write_of_ne (s : Store) {key key' : Key} (o : Object k) (h : key' ≠ key) :
    (s.write key o).objects.contains key' = s.objects.contains key' :=
  OrderedMap.contains_congr (get?_write_of_ne s o h)

theorem get?_ensure_of_ne (s : Store) (input : ObjectInput k) {key : Key} (h : key ≠ inputKey input) :
    (s.ensure input).objects.get? key = s.objects.get? key := by
  cases hc : s.objects.contains (inputKey input) with
  | true => rw [ensure_of_contains hc]
  | false => rw [ensure_of_absent hc, get?_write_of_ne s _ h]

theorem contains_ensure_self (s : Store) (input : ObjectInput k) :
    (s.ensure input).objects.contains (inputKey input) = true := by
  cases hc : s.objects.contains (inputKey input) with
  | true => rw [ensure_of_contains hc, hc]
  | false => rw [ensure_of_absent hc, contains_write_self]

theorem get?_ensure_of_some {s : Store} (input : ObjectInput k) {key : Key} {j : Json}
    (h : s.objects.get? key = some j) : (s.ensure input).objects.get? key = some j := by
  by_cases hkey : key = inputKey input
  . subst hkey
    rw [ensure_of_contains (OrderedMap.contains_of_get? h), h]
  . rw [get?_ensure_of_ne s input hkey, h]

theorem contains_ensure_of_contains {s : Store} (input : ObjectInput k) {key : Key}
    (h : s.objects.contains key = true) : (s.ensure input).objects.contains key = true := by
  obtain ⟨j, hj⟩ := (OrderedMap.contains_iff _ _).mp h
  exact OrderedMap.contains_of_get? (get?_ensure_of_some input hj)

theorem contains_ensure_of_ne (s : Store) (input : ObjectInput k) {key : Key}
    (h : key ≠ inputKey input) : (s.ensure input).objects.contains key = s.objects.contains key :=
  OrderedMap.contains_congr (get?_ensure_of_ne s input h)

theorem get_congr {s s' : Store} {item : ItemName}
    (h : s.objects.get? (Key.of k item) = s'.objects.get? (Key.of k item)) :
    s.get k item = s'.get k item := by
  rw [get, get, h]

theorem get_ensure_of_ne {k' : Kind} (s : Store) (input : ObjectInput k) {item : ItemName}
    (h : Key.of k' item ≠ inputKey input) : (s.ensure input).get k' item = s.get k' item :=
  get_congr (get?_ensure_of_ne s input h)

theorem fits_created {input : ObjectInput k} (h : k.SpecFits input.spec) (version : Nat) :
    (created input version).Fits := by
  refine ⟨?_, h⟩
  intro g hg
  simp [created, default, instInhabitedObjectMeta.default] at hg

theorem get_ensure_self {s : Store} {input : ObjectInput k} (hfits : k.SpecFits input.spec)
    (h : s.objects.contains (inputKey input) = false) :
    (s.ensure input).get k input.metadata.itemName = .ok (created input (s.version + 1)) := by
  have hget : (s.ensure input).objects.get? (Key.of k input.metadata.itemName) =
      some (stored (created input (s.version + 1))) := by
    rw [ensure_of_absent h]
    apply get?_write_self
  rw [get, hget]
  apply asKind_stored
  apply fits_created hfits

theorem isNotFound_get (s : Store) (k : Kind) (item : ItemName) :
    (∃ e, s.get k item = .error e ∧ e.isNotFound = true) ↔
      s.objects.contains (Key.of k item) = false := by
  rw [OrderedMap.contains_eq_false_iff, get]
  cases s.objects.get? (Key.of k item) with
  | none => simp [Error.isNotFound]
  | some j =>
    simp only [asKind]
    split <;> simp_all [Error.isNotFound]

end ClusterRegistration.Store
