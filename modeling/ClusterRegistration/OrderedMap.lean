/-!
This module contains maps that hold their entries in the order of the keys, so that two maps with
the same entries are equal.
-/

namespace ClusterRegistration

/--
A map from keys to values. The keys increase strictly.
-/
structure OrderedMap (κ : Type) (α : Type) [Ord κ] where
  entries : List (κ × α)
  sorted : entries.Pairwise (fun a b => compare a.1 b.1 = .lt)
deriving DecidableEq

namespace OrderedMap

variable {κ α : Type} [Ord κ]

def empty : OrderedMap κ α :=
  ⟨[], .nil⟩

instance : Inhabited (OrderedMap κ α) :=
  ⟨empty⟩

@[ext]
theorem ext {m n : OrderedMap κ α} (h : m.entries = n.entries) : m = n := by
  cases m; cases n; cases h; rfl

def insertEntry (k : κ) (a : α) : List (κ × α) → List (κ × α)
  | [] => [(k, a)]
  | (k', a') :: rest =>
    match compare k k' with
    | .lt => (k, a) :: (k', a') :: rest
    | .eq => (k, a) :: rest
    | .gt => (k', a') :: insertEntry k a rest

theorem mem_insertEntry {k : κ} {a : α} {e : κ × α} {es : List (κ × α)}
    (h : e ∈ insertEntry k a es) : e = (k, a) ∨ e ∈ es := by
  induction es with
  | nil => simpa [insertEntry] using h
  | cons e' rest ih =>
    obtain ⟨k', a'⟩ := e'
    simp only [insertEntry] at h
    split at h <;> grind

theorem sorted_insertEntry [Std.TransOrd κ] [Std.LawfulEqOrd κ] (k : κ) (a : α) {es : List (κ × α)}
    (h : es.Pairwise (fun a b => compare a.1 b.1 = .lt)) :
    (insertEntry k a es).Pairwise (fun a b => compare a.1 b.1 = .lt) := by
  induction es with
  | nil => simp [insertEntry]
  | cons e rest ih =>
    obtain ⟨k', a'⟩ := e
    rw [List.pairwise_cons] at h
    simp only [insertEntry]
    split
    next hlt =>
      refine List.pairwise_cons.mpr ⟨fun e he => ?_, List.pairwise_cons.mpr h⟩
      rcases List.mem_cons.mp he with rfl | he
      · exact hlt
      · exact Std.TransCmp.lt_trans hlt (h.1 e he)
    next heq =>
      have := Std.LawfulEqOrd.eq_of_compare heq
      subst this
      exact List.pairwise_cons.mpr h
    next hgt =>
      refine List.pairwise_cons.mpr ⟨fun e he => ?_, ih h.2⟩
      rcases mem_insertEntry he with rfl | he
      · exact Std.OrientedCmp.lt_of_gt hgt
      · exact h.1 e he

def get? (m : OrderedMap κ α) (k : κ) : Option α :=
  (m.entries.find? (fun e => compare k e.1 == .eq)).map (·.2)

def contains (m : OrderedMap κ α) (k : κ) : Bool :=
  (m.get? k).isSome

def size (m : OrderedMap κ α) : Nat :=
  m.entries.length

def keys (m : OrderedMap κ α) : List κ :=
  m.entries.map (·.1)

def insert [Std.TransOrd κ] [Std.LawfulEqOrd κ] (m : OrderedMap κ α) (k : κ) (a : α) :
    OrderedMap κ α :=
  ⟨insertEntry k a m.entries, sorted_insertEntry k a m.sorted⟩

def ofList [Std.TransOrd κ] [Std.LawfulEqOrd κ] (es : List (κ × α)) : OrderedMap κ α :=
  es.foldl (fun m e => m.insert e.1 e.2) empty

theorem get?_insert_self [Std.TransOrd κ] [Std.LawfulEqOrd κ] (m : OrderedMap κ α) (k : κ) (a : α) :
    (m.insert k a).get? k = some a := by
  obtain ⟨es, hs⟩ := m
  simp only [get?, insert]
  clear hs
  induction es with
  | nil => simp [insertEntry, Std.ReflCmp.compare_self]
  | cons e rest ih =>
    obtain ⟨k', a'⟩ := e
    simp only [insertEntry]
    split
    next => simp [Std.ReflCmp.compare_self]
    next => simp [Std.ReflCmp.compare_self]
    next hgt => simpa [List.find?_cons, hgt] using ih

theorem get?_insert_of_ne [Std.TransOrd κ] [Std.LawfulEqOrd κ] (m : OrderedMap κ α) {k k' : κ}
    (h : k' ≠ k) (a : α) : (m.insert k a).get? k' = m.get? k' := by
  obtain ⟨es, hs⟩ := m
  have hne : (compare k' k == .eq) = false := by
    cases hc : compare k' k
    · rfl
    · exact absurd (Std.LawfulEqOrd.eq_of_compare hc) h
    · rfl
  simp only [get?, insert]
  clear hs
  induction es with
  | nil => simp [insertEntry, hne]
  | cons e rest ih =>
    obtain ⟨k'', a'⟩ := e
    simp only [insertEntry]
    split
    next => simp [hne]
    next heq =>
      have := Std.LawfulEqOrd.eq_of_compare heq
      subst this
      simp [hne]
    next => simp only [List.find?_cons]; split <;> simp_all

end OrderedMap

abbrev Dictionary := OrderedMap String String

end ClusterRegistration
