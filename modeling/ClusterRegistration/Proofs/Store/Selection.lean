import ClusterRegistration.Proofs.Record.Alike
import ClusterRegistration.Proofs.Store.Listing

namespace ClusterRegistration.Store

namespace Key

def itemName (key : Key) : ItemName :=
  ⟨key.name, key.ns⟩

theorem compare_eq_lt_iff {a b : Key} (h : a.definition = b.definition) :
    compare a b = .lt ↔ a.ns < b.ns ∨ a.ns = b.ns ∧ a.name < b.name := by
  have hlt : ∀ s t : String, compare s t = .lt ↔ s < t := fun s t => compareOfLessAndEq_eq_lt
  rw [compare_def, texts, texts, h]
  simp only [List.compare_cons_cons, Std.ReflCmp.compare_self, Ordering.then_eq_lt, Ordering.eq_then,
    Ordering.then_eq, hlt, Std.compare_eq_iff_eq]

end Key

def Selects (k : Kind) (scope : Scope) (key : Key) : Prop :=
  key.definition = k.definition ∧
    (scope = .all ∨ k.isNamespaced = false ∨ scope = .inNamespace key.ns)

def listedKeys (s : Store) (k : Kind) (scope : Scope) : List Key :=
  s.objects.keys.filter (isIn k scope)

variable {k : Kind} {scope : Scope}

theorem isIn_iff {key : Key} : isIn k scope key = true ↔ Selects k scope key := by
  unfold isIn Selects
  rw [Bool.and_eq_true, decide_eq_true_iff]
  cases scope with
  | all => simp
  | inNamespace ns =>
    simp only [Bool.or_eq_true, Bool.not_eq_true', decide_eq_true_eq, reduceCtorEq, false_or,
      Scope.inNamespace.injEq, eq_comm (a := ns)]

section Keys

variable {s : Store}

theorem mem_listedKeys_iff {key : Key} :
    key ∈ s.listedKeys k scope ↔ s.objects.contains key = true ∧ Selects k scope key := by
  rw [listedKeys, List.mem_filter, OrderedMap.mem_keys_iff, isIn_iff]

theorem sorted_listedKeys :
    (s.listedKeys k scope).Pairwise (fun a b => a.ns < b.ns ∨ a.ns = b.ns ∧ a.name < b.name) := by
  have hsorted : (s.listedKeys k scope).Pairwise (fun a b => compare a b = .lt) :=
    s.objects.sorted_keys.filter _
  refine hsorted.imp_of_mem (fun {a b} ha hb hlt => ?_)
  have hdefinition : a.definition = b.definition :=
    (mem_listedKeys_iff.mp ha).2.1.trans (mem_listedKeys_iff.mp hb).2.1.symm
  exact (Key.compare_eq_lt_iff hdefinition).mp hlt

theorem listedKeys_congr {s' : Store} (h : ∀ key, s'.objects.contains key = s.objects.contains key) :
    s'.listedKeys k scope = s.listedKeys k scope := by
  rw [listedKeys, listedKeys, OrderedMap.keys_eq_of_contains_eq h]

theorem Selects.of_itemName {key : Key} (h : Selects k scope key)
    (hscope : k.isNamespaced = false → key.ns = "") : Key.of k key.itemName = key := by
  obtain ⟨definition, ns, name⟩ := key
  obtain ⟨rfl, -⟩ := h
  cases hn : k.isNamespaced with
  | true => simp [Key.of, Key.itemName, hn]
  | false =>
    have := hscope hn
    simp_all [Key.of, Key.itemName]

theorem get_itemName {key : Key} {j : Json} (hkey : Key.of k key.itemName = key)
    (hj : s.objects.get? key = some j) : s.get k key.itemName = asKind k j := by
  rw [get, hkey, hj]

section Reading

variable (hkeys : ∀ key ∈ s.listedKeys k scope, Key.of k key.itemName = key)

include hkeys

theorem list_eq_mapM :
    s.list k scope =
      ObjectList.ofItems <$> (s.listedKeys k scope).mapM (fun key => s.get k key.itemName) := by
  have hentries : s.listedKeys k scope =
      (s.objects.entries.filter (fun e => isIn k scope e.1)).map (·.1) := by
    rw [listedKeys, OrderedMap.keys, List.filter_map]
    rfl
  rw [list_eq, readEntries, hentries, ← mapM_eq_mapM_map]
  intro e he
  obtain ⟨he, hin⟩ := List.mem_filter.mp he
  have hj := s.objects.get?_eq_some_of_mem he
  have hmem : e.1 ∈ s.listedKeys k scope := by
    rw [hentries]
    exact List.mem_map_of_mem (List.mem_filter.mpr ⟨he, hin⟩)
  exact (get_itemName (hkeys e.1 hmem) hj).symm

theorem forall₂_of_list {l : ObjectList k} (h : s.list k scope = .ok l) :
    List.Forall₂ (fun key o => s.get k key.itemName = .ok o) (s.listedKeys k scope) l.items := by
  rw [list_eq_mapM hkeys] at h
  cases hitems : (s.listedKeys k scope).mapM (fun key => s.get k key.itemName) with
  | error e =>
    rw [hitems] at h
    cases h
  | ok items =>
    rw [hitems] at h
    cases h
    exact mapM_eq_ok_iff.mp hitems

theorem exists_list_iff :
    (∃ l, s.list k scope = .ok l) ↔
      ∀ key j, s.objects.get? key = some j → Selects k scope key →
        ∃ o : Object k, asKind k j = .ok o := by
  have hmap : (∃ l, s.list k scope = .ok l) ↔
      ∃ os, (s.listedKeys k scope).mapM (fun key => s.get k key.itemName) = .ok os := by
    rw [list_eq_mapM hkeys]
    cases (s.listedKeys k scope).mapM (fun key => s.get k key.itemName) <;>
      simp [Functor.map, Except.map]
  rw [hmap, exists_mapM_eq_ok_iff]
  constructor
  . intro h key j hj hselects
    have hmem : key ∈ s.listedKeys k scope := by
      rw [mem_listedKeys_iff]
      exact ⟨OrderedMap.contains_of_get? hj, hselects⟩
    rw [← get_itemName (hkeys key hmem) hj]
    exact h key hmem
  . intro h key hmem
    obtain ⟨hcontains, hselects⟩ := mem_listedKeys_iff.mp hmem
    obtain ⟨j, hj⟩ := (OrderedMap.contains_iff _ _).mp hcontains
    rw [get_itemName (hkeys key hmem) hj]
    exact h key j hj hselects

end Reading

end Keys

section First

variable {α β : Type} {r : α → β → Prop} {lt : α → α → Prop} {p : β → Bool}

theorem find?_eq_some_iff_of_sorted (hr : ∀ a b b', r a b → r a b' → b = b')
    (hasymm : ∀ a a', lt a a' → ¬ lt a' a) {as : List α} {bs : List β} (h : List.Forall₂ r as bs)
    (hsorted : as.Pairwise lt) {b : β} :
    bs.find? p = some b ↔
      ∃ a ∈ as, r a b ∧ p b = true ∧ ∀ a' ∈ as, ∀ b', r a' b' → p b' = true → ¬ lt a' a := by
  -- The first one is the least, since no later one comes before it.
  induction h with
  | nil => simp
  | @cons a₁ b₁ as bs hr₁ _ ih =>
    obtain ⟨hfirst, hrest⟩ := List.pairwise_cons.mp hsorted
    cases hp : p b₁ with
    | true =>
      rw [List.find?_cons_of_pos hp, Option.some_inj]
      constructor
      . rintro rfl
        refine ⟨a₁, List.mem_cons_self, hr₁, hp, ?_⟩
        intro a' ha' b' _ _ hlt
        rcases List.mem_cons.mp ha' with rfl | ha'
        . exact hasymm _ _ hlt hlt
        . exact hasymm _ _ (hfirst a' ha') hlt
      . rintro ⟨a, ha, hab, -, hleast⟩
        rcases List.mem_cons.mp ha with rfl | ha
        . exact hr _ _ _ hr₁ hab
        . exact absurd (hfirst a ha) (hleast a₁ List.mem_cons_self b₁ hr₁ hp)
    | false =>
      have hother : ∀ b', r a₁ b' → p b' = false := fun b' hb' => hr _ _ _ hr₁ hb' ▸ hp
      rw [List.find?_cons_of_neg (by simp [hp]), ih hrest]
      constructor
      . rintro ⟨a, ha, hab, hpb, hleast⟩
        refine ⟨a, List.mem_cons_of_mem _ ha, hab, hpb, ?_⟩
        intro a' ha' b' hb' hpb'
        rcases List.mem_cons.mp ha' with rfl | ha'
        . rw [hother b' hb'] at hpb'
          cases hpb'
        . exact hleast a' ha' b' hb' hpb'
      . rintro ⟨a, ha, hab, hpb, hleast⟩
        rcases List.mem_cons.mp ha with rfl | ha
        . rw [hother b hab] at hpb
          cases hpb
        . exact ⟨a, ha, hab, hpb, fun a' ha' => hleast a' (List.mem_cons_of_mem _ ha')⟩

end First

section OneNamespace

variable {s : Store} {ns : String} (hn : k.isNamespaced = true)

include hn

theorem of_itemName_of_isNamespaced : ∀ key ∈ s.listedKeys k scope, Key.of k key.itemName = key := by
  intro key hmem
  apply (mem_listedKeys_iff.mp hmem).2.of_itemName
  intro hscope
  rw [hn] at hscope
  cases hscope

theorem mem_listedKeys_inNamespace_iff {key : Key} :
    key ∈ s.listedKeys k (.inNamespace ns) ↔
      s.objects.contains key = true ∧ key.definition = k.definition ∧ key.ns = ns := by
  rw [mem_listedKeys_iff, Selects, hn]
  simp only [reduceCtorEq, false_or, Scope.inNamespace.injEq, Bool.true_eq_false, eq_comm (a := ns)]

theorem mem_listedKeys_of_get {name : String} {o : Object k} (h : s.get k ⟨name, ns⟩ = .ok o) :
    Key.of k ⟨name, ns⟩ ∈ s.listedKeys k (.inNamespace ns) := by
  rw [mem_listedKeys_inNamespace_iff hn]
  refine ⟨?_, rfl, ?_⟩
  . unfold get at h
    split at h
    . next j hj => exact OrderedMap.contains_of_get? hj
    . cases h
  . simp [Key.of, hn]

theorem mem_items_iff {l : ObjectList k} (h : s.list k (.inNamespace ns) = .ok l) (o : Object k) :
    o ∈ l.items ↔ ∃ name, s.get k ⟨name, ns⟩ = .ok o := by
  have hitems := forall₂_of_list (of_itemName_of_isNamespaced hn) h
  constructor
  . intro ho
    obtain ⟨key, hmem, hget⟩ := exists_mem_of_forall₂ hitems ho
    obtain ⟨-, -, rfl⟩ := (mem_listedKeys_inNamespace_iff hn).mp hmem
    exact ⟨key.name, hget⟩
  . rintro ⟨name, hget⟩
    have hname : (Key.of k ⟨name, ns⟩).itemName = ⟨name, ns⟩ := by
      simp [Key.of, Key.itemName, hn]
    obtain ⟨o', ho', hget'⟩ := exists_mem_of_forall₂ hitems.flip (mem_listedKeys_of_get hn hget)
    have hget' : s.get k (Key.of k ⟨name, ns⟩).itemName = .ok o' := hget'
    rw [hname, hget, Except.ok.injEq] at hget'
    rw [hget']
    exact ho'

theorem find?_items_iff {l : ObjectList k} (h : s.list k (.inNamespace ns) = .ok l) {p : Object k → Bool}
    {o : Object k} :
    l.items.find? p = some o ↔
      ∃ name, s.get k ⟨name, ns⟩ = .ok o ∧ p o = true ∧
        ∀ name' o', s.get k ⟨name', ns⟩ = .ok o' → p o' = true → name ≤ name' := by
  have hitems := forall₂_of_list (of_itemName_of_isNamespaced hn) h
  have hns : ∀ key ∈ s.listedKeys k (.inNamespace ns), key.ns = ns :=
    fun key hmem => ((mem_listedKeys_inNamespace_iff hn).mp hmem).2.2
  have hname : ∀ name, (Key.of k ⟨name, ns⟩).itemName = ⟨name, ns⟩ := by
    intro name
    simp [Key.of, Key.itemName, hn]
  have hasymm : ∀ a b : Key, (a.ns < b.ns ∨ a.ns = b.ns ∧ a.name < b.name) →
      ¬ (b.ns < a.ns ∨ b.ns = a.ns ∧ b.name < a.name) := by
    rintro a b (hlt | ⟨heq, hlt⟩) (hlt' | ⟨heq', hlt'⟩)
    . exact String.lt_asymm hlt hlt'
    . rw [heq'] at hlt
      exact String.lt_irrefl _ hlt
    . rw [heq] at hlt'
      exact String.lt_irrefl _ hlt'
    . exact String.lt_asymm hlt hlt'
  have hfunction : ∀ (key : Key) (o o' : Object k), s.get k key.itemName = .ok o →
      s.get k key.itemName = .ok o' → o = o' := by
    intro key o o' ho ho'
    rw [ho] at ho'
    exact Except.ok.inj ho'
  -- Within a namespace, the order of the keys is that of the names.
  rw [find?_eq_some_iff_of_sorted hfunction hasymm hitems sorted_listedKeys]
  constructor
  . rintro ⟨key, hmem, hget, hp, hleast⟩
    obtain rfl := hns key hmem
    refine ⟨key.name, hget, hp, fun name' o' hget' hp' => ?_⟩
    have hmem' := mem_listedKeys_of_get hn hget'
    rw [← hname name'] at hget'
    have hnot := hleast _ hmem' o' hget' hp'
    intro hlt
    refine hnot (.inr ⟨hns _ hmem', hlt⟩)
  . rintro ⟨name, hget, hp, hleast⟩
    have hmem := mem_listedKeys_of_get hn hget
    refine ⟨_, hmem, (hname name).symm ▸ hget, hp, fun key' hmem' o' hget' hp' => ?_⟩
    obtain rfl := hns key' hmem'
    have hle := hleast key'.name o' hget' hp'
    rintro (hlt | ⟨-, hlt⟩)
    . have hsame : (Key.of k ⟨name, key'.ns⟩).ns = key'.ns := hns _ hmem
      rw [hsame] at hlt
      exact String.lt_irrefl _ hlt
    . exact hle hlt

end OneNamespace

end ClusterRegistration.Store
