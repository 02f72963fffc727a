import ClusterRegistration.Proofs.Store.Selection

/-!
This module contains the stores that come about by the operations on stores, and what can be read in
them.
-/

namespace ClusterRegistration

def Kind.IsAlone (k : Kind) : Prop :=
  ∀ k' : Kind, k'.definition = k.definition → k' = k

theorem Kind.isAlone_secret : Kind.secret.IsAlone := by
  intro k h
  cases k with
  | secret => rfl
  | _ => exact absurd h (by decide)

theorem Kind.isAlone_serviceAccount : Kind.serviceAccount.IsAlone := by
  intro k h
  cases k with
  | serviceAccount => rfl
  | _ => exact absurd h (by decide)

namespace Store

/--
The stores that creations and replacements lead to.
-/
inductive Reachable : Store → Prop where
  | empty : Reachable empty
  | create {s s' : Store} {k : Kind} {input : ObjectInput k} {o : Object k} (h : Reachable s)
    (hfits : k.SpecFits input.spec) (hcreate : s.create input = .ok (o, s')) : Reachable s'
  | replace {s s' : Store} {k : Kind} {o o' : Object k} (h : Reachable s) (hfits : o.Fits)
    (hreplace : s.replace o = .ok (o', s')) : Reachable s'

def Holds (key : Key) (j : Json) : Prop :=
  ∃ (k : Kind) (o : Object k), o.Fits ∧ key = Key.of k o.metadata.itemName ∧ j = stored o

variable {k : Kind}

def replaced (o : Object k) (version : Nat) : Object k :=
  { o with metadata := { o.metadata with resourceVersion := toString version } }

theorem replace_of_contains {s : Store} {o : Object k}
    (h : s.objects.contains (Key.of k o.metadata.itemName) = true) :
    s.replace o = .ok (replaced o (s.version + 1),
      s.write (Key.of k o.metadata.itemName) (replaced o (s.version + 1))) := by
  unfold replace
  exact if_pos h

theorem replace_of_absent {s : Store} {o : Object k}
    (h : s.objects.contains (Key.of k o.metadata.itemName) = false) :
    s.replace o = .error (.notFound (Key.label k (Key.of k o.metadata.itemName))) := by
  unfold replace
  apply if_neg
  rw [h]
  apply Bool.false_ne_true

theorem holds_write {s : Store} {o : Object k} {key : Key}
    (h : ∀ key' j, s.objects.get? key' = some j → Holds key' j) (hfits : o.Fits)
    (hkey : key = Key.of k o.metadata.itemName) {key' : Key} {j : Json}
    (hj : (s.write key o).objects.get? key' = some j) : Holds key' j := by
  by_cases hkey' : key' = key
  . rw [hkey', get?_write_self, Option.some_inj] at hj
    exact ⟨k, o, hfits, hkey'.trans hkey, hj.symm⟩
  . rw [get?_write_of_ne s o hkey'] at hj
    exact h key' j hj

theorem key_created (input : ObjectInput k) (version : Nat) :
    Key.of k (created input version).metadata.itemName = inputKey input := by
  unfold inputKey Key.of
  simp only [created, ObjectMeta.itemName, InputMeta.itemName, Key.of]
  cases k.isNamespaced <;> rfl

theorem Reachable.holds {s : Store} (h : s.Reachable) {key : Key} {j : Json}
    (hj : s.objects.get? key = some j) : Holds key j := by
  -- On how the store has come about. What is written holds, and the others hold as before.
  induction h generalizing key j with
  | empty => cases hj
  | @create s s' k input o h hfits hcreate ih =>
    cases hc : s.objects.contains (inputKey input) with
    | true =>
      rw [create_of_contains hc] at hcreate
      cases hcreate
    | false =>
      rw [create_of_absent hc] at hcreate
      cases hcreate
      exact holds_write (fun _ _ => ih) (fits_created hfits _) (key_created input _).symm hj
  | @replace s s' k o o' h hfits hreplace ih =>
    cases hc : s.objects.contains (Key.of k o.metadata.itemName) with
    | true =>
      rw [replace_of_contains hc] at hreplace
      cases hreplace
      have hfits' : (replaced o (s.version + 1)).Fits := hfits
      exact holds_write (fun _ _ => ih) hfits' rfl hj
    | false =>
      rw [replace_of_absent hc] at hreplace
      cases hreplace

theorem Reachable.ensure {s : Store} (h : s.Reachable) (input : ObjectInput k)
    (hfits : k.SpecFits input.spec) : (s.ensure input).Reachable := by
  cases hc : s.objects.contains (inputKey input) with
  | true =>
    rw [ensure_of_contains hc]
    exact h
  | false =>
    rw [ensure_of_absent hc]
    exact h.create hfits (create_of_absent hc)

section Reading

variable {s : Store} {p : Object k → Bool}

theorem Reachable.exists_asKind (h : s.Reachable) (hk : k.IsAlone) {key : Key} {j : Json}
    (hj : s.objects.get? key = some j) (hkey : key.definition = k.definition) :
    ∃ o : Object k, asKind k j = .ok o := by
  obtain ⟨k', o, hfits, rfl, rfl⟩ := h.holds hj
  obtain rfl := hk k' hkey
  exact ⟨o, asKind_stored hfits⟩

theorem Reachable.exists_get (h : s.Reachable) (hk : k.IsAlone) {item : ItemName}
    (hkey : s.objects.contains (Key.of k item) = true) : ∃ o : Object k, s.get k item = .ok o := by
  obtain ⟨j, hj⟩ := (OrderedMap.contains_iff _ _).mp hkey
  unfold get
  rw [hj]
  exact h.exists_asKind hk hj rfl

variable {ns : String}

theorem Reachable.exists_list (h : s.Reachable) (hk : k.IsAlone) (hn : k.isNamespaced = true)
    (ns : String) :
    ∃ l, s.list k (.inNamespace ns) = .ok l ∧
      ∀ o, o ∈ l.items ↔ ∃ name, s.get k ⟨name, ns⟩ = .ok o := by
  obtain ⟨l, hl⟩ := (exists_list_iff (of_itemName_of_isNamespaced hn)).mpr
    (fun _ _ hj hselects => h.exists_asKind hk hj hselects.1)
  exact ⟨l, hl, mem_items_iff hn hl⟩

theorem Reachable.firstIn_of_none (h : s.Reachable) (hk : k.IsAlone) (hn : k.isNamespaced = true)
    (hp : ∀ name o, s.get k ⟨name, ns⟩ = .ok o → p o = false) :
    s.firstIn k (.inNamespace ns) p = .ok none := by
  obtain ⟨l, hl, hmem⟩ := h.exists_list hk hn ns
  have hnone : l.items.find? p = none := by
    rw [List.find?_eq_none]
    intro o ho
    obtain ⟨name, hget⟩ := (hmem o).mp ho
    rw [hp name o hget]
    apply Bool.false_ne_true
  rw [firstIn, hl]
  show Except.ok (l.items.find? p) = _
  rw [hnone]

theorem Reachable.firstIn_of_only (h : s.Reachable) (hk : k.IsAlone) (hn : k.isNamespaced = true)
    (name : String) {o : Object k} (hget : s.get k ⟨name, ns⟩ = .ok o) (hpo : p o = true)
    (hp : ∀ name' o', name' ≠ name → s.get k ⟨name', ns⟩ = .ok o' → p o' = false) :
    s.firstIn k (.inNamespace ns) p = .ok (some o) := by
  obtain ⟨l, hl, hmem⟩ := h.exists_list hk hn ns
  have hsome : l.items.find? p = some o := by
    cases hfind : l.items.find? p with
    | none =>
      rw [List.find?_eq_none] at hfind
      exact absurd hpo (hfind o ((hmem o).mpr ⟨name, hget⟩))
    | some o' =>
      obtain ⟨name', hget'⟩ := (hmem o').mp (List.mem_of_find?_eq_some hfind)
      by_cases hname : name' = name
      . rw [hname, hget] at hget'
        cases hget'
        rfl
      . have hpo' := List.find?_some hfind
        rw [hp name' o' hname hget'] at hpo'
        cases hpo'
  rw [firstIn, hl]
  show Except.ok (l.items.find? p) = _
  rw [hsome]

end Reading

end Store

end ClusterRegistration
