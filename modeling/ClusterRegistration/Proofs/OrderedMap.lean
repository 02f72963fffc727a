import ClusterRegistration.OrderedMap

namespace ClusterRegistration.OrderedMap

variable {κ α : Type} [Ord κ]

theorem contains_eq_false_iff (m : OrderedMap κ α) (k : κ) :
    m.contains k = false ↔ m.get? k = none := by
  simp [contains]

theorem contains_iff (m : OrderedMap κ α) (k : κ) : m.contains k = true ↔ ∃ a, m.get? k = some a :=
  Option.isSome_iff_exists

theorem contains_of_get? {m : OrderedMap κ α} {k : κ} {a : α} (h : m.get? k = some a) :
    m.contains k = true :=
  (m.contains_iff k).mpr ⟨a, h⟩

theorem contains_congr {m n : OrderedMap κ α} {k : κ} (h : m.get? k = n.get? k) :
    m.contains k = n.contains k := by
  rw [contains, h, contains]

theorem compare_eq_iff [Std.LawfulEqOrd κ] (k k' : κ) : compare k k' = .eq ↔ k = k' := by
  constructor
  . apply Std.LawfulEqOrd.eq_of_compare
  . intro h
    rw [h]
    apply Std.ReflCmp.compare_self

theorem insertEntry_append [Std.TransOrd κ] (k : κ) (a : α) (es : List (κ × α))
    (h : ∀ e ∈ es, compare e.1 k = .lt) : insertEntry k a es = es ++ [(k, a)] := by
  induction es with
  | nil => rfl
  | cons e es ih =>
    obtain ⟨k', a'⟩ := e
    have hgt : compare k k' = .gt := Std.OrientedCmp.gt_of_lt (h _ List.mem_cons_self)
    simp only [insertEntry, hgt, List.cons_append]
    rw [ih]
    intro e he
    apply h
    exact List.mem_cons_of_mem _ he

variable [Std.TransOrd κ] [Std.LawfulEqOrd κ]

theorem get?_eq_some_of_mem (m : OrderedMap κ α) {k : κ} {a : α} (h : (k, a) ∈ m.entries) :
    m.get? k = some a := by
  obtain ⟨es, hs⟩ := m
  simp only [get?]
  induction es with
  | nil => simp at h
  | cons e es ih =>
    rw [List.pairwise_cons] at hs
    rcases List.mem_cons.mp h with rfl | hmem
    . simp [Std.ReflCmp.compare_self]
    . have hlt : compare k e.1 = .gt := Std.OrientedCmp.gt_of_lt (hs.1 _ hmem)
      simpa [List.find?_cons, hlt] using ih hs.2 hmem

omit [Std.TransOrd κ] in
theorem mem_of_get?_eq_some (m : OrderedMap κ α) {k : κ} {a : α} (h : m.get? k = some a) :
    (k, a) ∈ m.entries := by
  simp only [get?, Option.map_eq_some_iff] at h
  obtain ⟨⟨k', a'⟩, hfind, rfl⟩ := h
  have hk := List.find?_some hfind
  simp only [beq_iff_eq, compare_eq_iff] at hk
  rw [hk]
  exact List.mem_of_find?_eq_some hfind

theorem exists_entries_insert (m : OrderedMap κ α) {k : κ} (a : α) (h : m.get? k = none) :
    ∃ l₁ l₂, m.entries = l₁ ++ l₂ ∧ (m.insert k a).entries = l₁ ++ (k, a) :: l₂ := by
  obtain ⟨es, hs⟩ := m
  simp only [get?, insert, Option.map_eq_none_iff] at h ⊢
  clear hs
  induction es with
  | nil => exact ⟨[], [], rfl, rfl⟩
  | cons e es ih =>
    obtain ⟨k', a'⟩ := e
    simp only [insertEntry]
    split
    . exact ⟨[], (k', a') :: es, rfl, rfl⟩
    . next heq => simp [heq] at h
    . next hgt =>
      simp only [List.find?_cons, hgt] at h
      obtain ⟨l₁, l₂, hes, hins⟩ := ih h
      refine ⟨(k', a') :: l₁, l₂, ?_, ?_⟩
      . rw [hes, List.cons_append]
      . rw [hins, List.cons_append]

theorem size_insert_of_absent (m : OrderedMap κ α) {k : κ} (a : α) (h : m.contains k = false) :
    (m.insert k a).size = m.size + 1 := by
  rw [contains_eq_false_iff] at h
  obtain ⟨l₁, l₂, hold, hnew⟩ := exists_entries_insert m a h
  simp only [size, hold, hnew, List.length_append, List.length_cons]
  omega

omit [Std.LawfulEqOrd κ] in
theorem length_insertEntry_of_any {k : κ} (a : α) {es : List (κ × α)}
    (hs : es.Pairwise (fun a b => compare a.1 b.1 = .lt))
    (h : es.any (fun e => compare k e.1 == .eq) = true) :
    (insertEntry k a es).length = es.length := by
  induction es with
  | nil => cases h
  | cons e es ih =>
    obtain ⟨k', a'⟩ := e
    rw [List.pairwise_cons] at hs
    simp only [insertEntry]
    split
    . next hlt =>
      -- The key comes before all others, so that it can not be among them.
      rw [List.any_eq_true] at h
      obtain ⟨e, he, heq⟩ := h
      rw [beq_iff_eq] at heq
      rcases List.mem_cons.mp he with rfl | he
      . rw [hlt] at heq
        cases heq
      . rw [Std.TransCmp.lt_trans hlt (hs.1 e he)] at heq
        cases heq
    . rfl
    . next hgt =>
      rw [List.length_cons, List.length_cons, ih hs.2]
      simpa [hgt] using h

theorem size_insert_of_contains (m : OrderedMap κ α) {k : κ} (a : α) (h : m.contains k = true) :
    (m.insert k a).size = m.size := by
  apply length_insertEntry_of_any a m.sorted
  rw [contains, get?, Option.isSome_map, List.find?_isSome] at h
  rw [List.any_eq_true]
  exact h

theorem entries_foldl_insert (es : List (κ × α)) (m : OrderedMap κ α)
    (h : (m.entries ++ es).Pairwise (fun a b => compare a.1 b.1 = .lt)) :
    (es.foldl (fun m e => m.insert e.1 e.2) m).entries = m.entries ++ es := by
  induction es generalizing m with
  | nil => simp
  | cons e es ih =>
    have hins : (m.insert e.1 e.2).entries = m.entries ++ [e] := by
      apply insertEntry_append
      intro e' he'
      rw [List.pairwise_append] at h
      exact h.2.2 e' he' e List.mem_cons_self
    simp only [List.foldl_cons]
    rw [ih, hins, List.append_assoc, List.singleton_append]
    rw [hins, List.append_assoc, List.singleton_append]
    exact h

theorem ofList_entries (m : OrderedMap κ α) : ofList m.entries = m := by
  apply ext
  rw [ofList, entries_foldl_insert]
  . rfl
  . exact m.sorted

theorem eq_of_increasing {β : Type} (key : β → κ) {l l' : List β}
    (h : l.Pairwise (fun a b => compare (key a) (key b) = .lt))
    (h' : l'.Pairwise (fun a b => compare (key a) (key b) = .lt)) (hmem : ∀ b, b ∈ l ↔ b ∈ l') :
    l = l' := by
  have hnodup : ∀ l : List β, l.Pairwise (fun a b => compare (key a) (key b) = .lt) → l.Nodup := by
    intro l h
    refine h.imp (fun {a b} hlt heq => ?_)
    rw [heq, (compare_eq_iff (key b) (key b)).mpr rfl] at hlt
    cases hlt
  have hperm : l.Perm l' := (List.perm_ext_iff_of_nodup (hnodup l h) (hnodup l' h')).mpr hmem
  apply hperm.eq_of_pairwise (fun a b _ _ hab hba => ?_) h h'
  rw [Std.OrientedCmp.gt_of_lt hab] at hba
  cases hba

theorem ext_get? {m n : OrderedMap κ α} (h : ∀ k, m.get? k = n.get? k) : m = n := by
  have hmem : ∀ e, e ∈ m.entries ↔ e ∈ n.entries := by
    intro ⟨k, a⟩
    constructor
    . intro he
      exact n.mem_of_get?_eq_some ((h k).symm.trans (m.get?_eq_some_of_mem he))
    . intro he
      exact m.mem_of_get?_eq_some ((h k).trans (n.get?_eq_some_of_mem he))
  apply ext
  exact eq_of_increasing (·.1) m.sorted n.sorted hmem

omit [Std.TransOrd κ] [Std.LawfulEqOrd κ] in
theorem sorted_keys (m : OrderedMap κ α) : m.keys.Pairwise (fun a b => compare a b = .lt) :=
  List.pairwise_map.mpr m.sorted

theorem mem_keys_iff (m : OrderedMap κ α) (k : κ) : k ∈ m.keys ↔ m.contains k = true := by
  rw [keys, List.mem_map, contains_iff]
  constructor
  . rintro ⟨e, he, rfl⟩
    exact ⟨e.2, m.get?_eq_some_of_mem he⟩
  . rintro ⟨a, ha⟩
    exact ⟨(k, a), m.mem_of_get?_eq_some ha, rfl⟩

theorem keys_eq_of_contains_eq {m n : OrderedMap κ α} (h : ∀ k, m.contains k = n.contains k) :
    m.keys = n.keys := by
  apply eq_of_increasing id m.sorted_keys n.sorted_keys
  intro k
  rw [mem_keys_iff, mem_keys_iff, h]

theorem insert_comm (m : OrderedMap κ α) {k k' : κ} (h : k ≠ k') (a a' : α) :
    (m.insert k a).insert k' a' = (m.insert k' a').insert k a := by
  apply ext_get?
  intro key
  by_cases hk : key = k
  . rw [hk, get?_insert_of_ne _ h, get?_insert_self, get?_insert_self]
  . by_cases hk' : key = k'
    . rw [hk', get?_insert_self, get?_insert_of_ne _ h.symm, get?_insert_self]
    . rw [get?_insert_of_ne _ hk', get?_insert_of_ne _ hk, get?_insert_of_ne _ hk,
        get?_insert_of_ne _ hk']

theorem ofList_append (es es' : List (κ × α)) :
    ofList (es ++ es') = es'.foldl (fun m e => m.insert e.1 e.2) (ofList es) :=
  List.foldl_append

end ClusterRegistration.OrderedMap
