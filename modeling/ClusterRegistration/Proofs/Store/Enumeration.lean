import ClusterRegistration.Proofs.Store.Reachable

namespace ClusterRegistration.Store

variable {k : Kind} {scope : Scope}

theorem isNamespaced_congr {k k' : Kind} (h : k.definition = k'.definition) :
    k.isNamespaced = k'.isNamespaced := by
  cases k <;> cases k' <;> first | rfl | exact absurd h (by decide)

theorem Reachable.of_itemName {s : Store} (h : s.Reachable) {key : Key}
    (hmem : key ∈ s.listedKeys k scope) : Key.of k key.itemName = key := by
  obtain ⟨hcontains, hselects⟩ := mem_listedKeys_iff.mp hmem
  obtain ⟨j, hj⟩ := (OrderedMap.contains_iff _ _).mp hcontains
  obtain ⟨k', o, -, rfl, -⟩ := h.holds hj
  apply hselects.of_itemName
  intro hscope
  have hscope' : k'.isNamespaced = false := (isNamespaced_congr hselects.1).trans hscope
  simp [Key.of, hscope']

/--
The law of lists. A list can be read if all that its scope selects can be; then it holds one object for
each selected key, in the order of namespaces and names, as it is read under that key. A namespace selects
the keys of its own, however it is called. Which keys are there is all that their order depends on.
-/
theorem enumeration_law {s : Store} (h : s.Reachable) (k : Kind) (scope : Scope) :
    ((∃ l, s.list k scope = .ok l) ↔
      ∀ key j, s.objects.get? key = some j → Selects k scope key →
        ∃ o : Object k, asKind k j = .ok o) ∧
      (∀ l, s.list k scope = .ok l →
        List.Forall₂ (fun key o => Key.of k key.itemName = key ∧ s.get k key.itemName = .ok o)
          (s.listedKeys k scope) l.items) ∧
      (∀ key, key ∈ s.listedKeys k scope ↔ s.objects.contains key = true ∧ Selects k scope key) ∧
      (s.listedKeys k scope).Pairwise (fun a b => a.ns < b.ns ∨ a.ns = b.ns ∧ a.name < b.name) ∧
      (k.isNamespaced = true → ∀ ns key, key ∈ s.listedKeys k (.inNamespace ns) ↔
        s.objects.contains key = true ∧ key.definition = k.definition ∧ key.ns = ns) ∧
      ∀ s' : Store, (∀ key, s'.objects.contains key = s.objects.contains key) →
        s'.listedKeys k scope = s.listedKeys k scope := by
  have hkeys : ∀ key ∈ s.listedKeys k scope, Key.of k key.itemName = key :=
    fun _ hmem => h.of_itemName hmem
  refine ⟨exists_list_iff hkeys, ?_, fun _ => mem_listedKeys_iff, sorted_listedKeys,
    fun hn _ _ => mem_listedKeys_inNamespace_iff hn, fun _ hcontains => listedKeys_congr hcontains⟩
  intro l hl
  rw [List.forall₂_and_left]
  exact ⟨hkeys, forall₂_of_list hkeys hl⟩

section Sample

def sampleSecret (item : ItemName) : ObjectInput .secret :=
  ObjectInput.new (.named item.name item.ns) () (SecretHeader.typed SecretHeader.opaqueType)

def sampleSecrets : Store :=
  ((empty.ensure (sampleSecret ⟨"b", "all"⟩)).ensure (sampleSecret ⟨"c", "apps"⟩)).ensure
    (sampleSecret ⟨"a", "all"⟩)

theorem enumeration_law_of_sample :
    sampleSecrets.Reachable ∧
      ∃ l, sampleSecrets.list .secret (.inNamespace "all") = .ok l ∧
        List.Forall₂ (fun item o => sampleSecrets.get .secret item = .ok o)
          [⟨"a", "all"⟩, ⟨"b", "all"⟩] l.items := by
  have hreachable : sampleSecrets.Reachable :=
    ((Reachable.empty.ensure (sampleSecret ⟨"b", "all"⟩) trivial).ensure
      (sampleSecret ⟨"c", "apps"⟩) trivial).ensure (sampleSecret ⟨"a", "all"⟩) trivial
  have hkeys : sampleSecrets.listedKeys .secret (.inNamespace "all") =
      [Key.of .secret ⟨"a", "all"⟩, Key.of .secret ⟨"b", "all"⟩] := rfl
  obtain ⟨hread, hitems, -⟩ := enumeration_law hreachable .secret (.inNamespace "all")
  obtain ⟨l, hl⟩ := hread.mpr
    (fun _ _ hj hselects => hreachable.exists_asKind Kind.isAlone_secret hj hselects.1)
  refine ⟨hreachable, l, hl, ?_⟩
  have hitems := hitems l hl
  rw [hkeys] at hitems
  show List.Forall₂ _ ([Key.of .secret ⟨"a", "all"⟩, Key.of .secret ⟨"b", "all"⟩].map Key.itemName) _
  rw [List.forall₂_map_left_iff]
  exact hitems.imp (fun _ _ h => h.2)

end Sample

end ClusterRegistration.Store
