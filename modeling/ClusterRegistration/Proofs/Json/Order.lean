import Mathlib.Data.List.Forall2
import ClusterRegistration.Json.Canonical
import ClusterRegistration.Proofs.OrderedMap

/-!
This module contains what it means that two JSON values differ in the order of members only. The
canonical form of a value that can be written is such a reordering of it.
-/

namespace ClusterRegistration.Json

inductive Permuted (R : Json → Json → Prop) : List (String × Json) → List (String × Json) → Prop where
  | nil : Permuted R [] []
  | cons {j j' : Json} {ms ms' : List (String × Json)} (key : String) (hj : R j j')
    (h : Permuted R ms ms') : Permuted R ((key, j) :: ms) ((key, j') :: ms')
  | swap {m m' : String × Json} (ms : List (String × Json)) (hkeys : m.1 ≠ m'.1) :
    Permuted R (m :: m' :: ms) (m' :: m :: ms)
  | trans {ms₁ ms₂ ms₃ : List (String × Json)} (h : Permuted R ms₁ ms₂) (h' : Permuted R ms₂ ms₃) :
    Permuted R ms₁ ms₃

inductive Same : Json → Json → Prop where
  | refl (j : Json) : Same j j
  | array {js js' : List Json} (h : List.Forall₂ Same js js') : Same (.array js) (.array js')
  | object {ms ms' : List (String × Json)} (h : Permuted Same ms ms') :
    Same (.object ms) (.object ms')

namespace Permuted

variable {R : Json → Json → Prop} {ms ms' : List (String × Json)}

theorem refl (hR : ∀ j, R j j) (ms : List (String × Json)) : Permuted R ms ms := by
  induction ms with
  | nil => exact .nil
  | cons m ms ih => exact .cons m.1 (hR m.2) ih

theorem append_left (hR : ∀ j, R j j) (ms₀ : List (String × Json)) (h : Permuted R ms ms') :
    Permuted R (ms₀ ++ ms) (ms₀ ++ ms') := by
  induction ms₀ with
  | nil => exact h
  | cons m ms₀ ih => exact .cons m.1 (hR m.2) ih

theorem append_right (hR : ∀ j, R j j) (h : Permuted R ms ms') (ms₀ : List (String × Json)) :
    Permuted R (ms ++ ms₀) (ms' ++ ms₀) := by
  induction h with
  | nil => exact refl hR ms₀
  | cons key hj h ih => exact .cons key hj ih
  | swap ms hkeys => exact .swap _ hkeys
  | trans h h' ih ih' => exact .trans ih ih'

theorem to_end (hR : ∀ j, R j j) (m : String × Json) (h : m.1 ∉ ms.map (·.1)) :
    Permuted R (m :: ms) (ms ++ [m]) := by
  induction ms with
  | nil => exact refl hR [m]
  | cons m' ms ih =>
    rw [List.map_cons, List.mem_cons, not_or] at h
    exact .trans (.swap ms h.1) (.cons m'.1 (hR m'.2) (ih h.2))

theorem insertEntry (hR : ∀ j, R j j) (m : String × Json) (h : m.1 ∉ ms.map (·.1)) :
    Permuted R (OrderedMap.insertEntry m.1 m.2 ms) (ms ++ [m]) := by
  induction ms with
  | nil => exact refl hR [m]
  | cons m' ms ih =>
    have hend := to_end hR m h
    rw [List.map_cons, List.mem_cons, not_or] at h
    unfold OrderedMap.insertEntry
    split
    . exact hend
    . next heq => exact absurd (Std.LawfulEqOrd.eq_of_compare heq) h.1
    . exact .cons m'.1 (hR m'.2) (ih h.2)

theorem keys_perm (h : Permuted R ms ms') : (ms.map (·.1)).Perm (ms'.map (·.1)) := by
  induction h with
  | nil => exact .nil
  | cons key hj h ih => exact .cons key ih
  | swap ms hkeys => exact .swap _ _ _
  | trans h h' ih ih' => exact .trans ih ih'

theorem exists_of_singleton {P : Json → Prop} (hP : ∀ j j', R j j' → (P j ↔ P j')) {key : String}
    {j : Json} (h : Permuted R [(key, j)] ms) : ∃ j', ms = [(key, j')] ∧ (P j ↔ P j') := by
  generalize hms : [(key, j)] = ms₀ at h
  induction h generalizing j with
  | nil => cases hms
  | @cons j₁ j₂ ms ms' key' hj h ih =>
    cases hms
    have hnil := h.keys_perm
    rw [List.map_nil, List.nil_perm, List.map_eq_nil_iff] at hnil
    subst hnil
    exact ⟨j₂, rfl, hP _ _ hj⟩
  | swap ms hkeys => cases hms
  | trans h h' ih ih' =>
    obtain ⟨j', hms', hj'⟩ := ih hms
    obtain ⟨j'', hms'', hj''⟩ := ih' hms'.symm
    exact ⟨j'', hms'', hj'.trans hj''⟩

end Permuted

namespace Same

variable {j j' : Json}

theorem cases (h : Same j j') :
    (∃ js js', j = .array js ∧ j' = .array js' ∧ List.Forall₂ Same js js') ∨
    (∃ ms ms', j = .object ms ∧ j' = .object ms' ∧ Permuted Same ms ms') ∨
    (j = j' ∧ (∀ js, j ≠ .array js) ∧ ∀ ms, j ≠ .object ms) := by
  cases h with
  | refl =>
    cases j with
    | array js => exact .inl ⟨js, js, rfl, rfl, List.forall₂_same.mpr (fun j _ => .refl j)⟩
    | object ms => exact .inr (.inl ⟨ms, ms, rfl, rfl, .refl Same.refl ms⟩)
    | _ => exact .inr (.inr ⟨rfl, by simp, by simp⟩)
  | array h => exact .inl ⟨_, _, rfl, rfl, h⟩
  | object h => exact .inr (.inl ⟨_, _, rfl, rfl, h⟩)

theorem null_iff (h : Same j j') : j = .null ↔ j' = .null := by
  cases h with
  | refl => rfl
  | array h => simp
  | object h => simp

end Same

mutual

/--
What objects are written as: numbers are integers that 64 bits hold, no two members of an object have
one name, and at most `n` containers are nested.
-/
def Writable : Nat → Json → Prop
  | _, .null | _, .flag _ | _, .text _ => True
  | _, .number (.integer i) => -9223372036854775808 ≤ i ∧ i ≤ 18446744073709551615
  | _, .number (.float _) => False
  | 0, .array _ | 0, .object _ => False
  | n + 1, .array items => WritableItems n items
  | n + 1, .object members => (members.map (·.1)).Nodup ∧ WritableMembers n members

def WritableItems : Nat → List Json → Prop
  | _, [] => True
  | n, j :: js => j.Writable n ∧ WritableItems n js

def WritableMembers : Nat → List (String × Json) → Prop
  | _, [] => True
  | n, (_, j) :: ms => j.Writable n ∧ WritableMembers n ms

end

mutual

def decidableWritable : (n : Nat) → (j : Json) → Decidable (j.Writable n)
  | _, .null | _, .flag _ | _, .text _ => .isTrue trivial
  | _, .number (.integer i) =>
    inferInstanceAs (Decidable (-9223372036854775808 ≤ i ∧ i ≤ 18446744073709551615))
  | _, .number (.float _) | 0, .array _ | 0, .object _ => .isFalse id
  | n + 1, .array items => decidableWritableItems n items
  | n + 1, .object members =>
    have := decidableWritableMembers n members
    inferInstanceAs (Decidable ((members.map (·.1)).Nodup ∧ WritableMembers n members))

def decidableWritableItems : (n : Nat) → (js : List Json) → Decidable (WritableItems n js)
  | _, [] => .isTrue trivial
  | n, j :: js =>
    have := decidableWritable n j
    have := decidableWritableItems n js
    inferInstanceAs (Decidable (j.Writable n ∧ WritableItems n js))

def decidableWritableMembers : (n : Nat) → (ms : List (String × Json)) → Decidable (WritableMembers n ms)
  | _, [] => .isTrue trivial
  | n, (_, j) :: ms =>
    have := decidableWritable n j
    have := decidableWritableMembers n ms
    inferInstanceAs (Decidable (j.Writable n ∧ WritableMembers n ms))

end

instance (n : Nat) (j : Json) : Decidable (j.Writable n) :=
  decidableWritable n j

mutual

theorem Writable.mono {m n : Nat} (hmn : m ≤ n) {j : Json} (h : j.Writable m) : j.Writable n := by
  match m, n, j, h with
  | _, _, .null, _ | _, _, .flag _, _ | _, _, .text _, _ => trivial
  | _, _, .number (.integer i), h => exact h
  | m + 1, n + 1, .array items, h => exact WritableItems.mono (Nat.le_of_succ_le_succ hmn) h
  | m + 1, n + 1, .object members, h =>
    exact ⟨h.1, WritableMembers.mono (Nat.le_of_succ_le_succ hmn) h.2⟩

theorem WritableItems.mono {m n : Nat} (hmn : m ≤ n) {js : List Json} (h : WritableItems m js) :
    WritableItems n js := by
  match js with
  | [] => trivial
  | j :: js => exact ⟨h.1.mono hmn, h.2.mono hmn⟩

theorem WritableMembers.mono {m n : Nat} (hmn : m ≤ n) {ms : List (String × Json)}
    (h : WritableMembers m ms) : WritableMembers n ms := by
  match ms with
  | [] => trivial
  | m :: ms => exact ⟨h.1.mono hmn, h.2.mono hmn⟩

end

theorem map_fst_canonicalMembers (ms : List (String × Json)) :
    (canonicalMembers ms).map (·.1) = ms.map (·.1) := by
  induction ms with
  | nil => rfl
  | cons m ms ih => rw [canonicalMembers, List.map_cons, List.map_cons, ih]

theorem permuted_foldl_insert {R : Json → Json → Prop} (hR : ∀ j, R j j) (ms : List (String × Json))
    (map : OrderedMap String Json) (h : ((map.entries ++ ms).map (·.1)).Nodup) :
    Permuted R (ms.foldl (fun map m => map.insert m.1 m.2) map).entries (map.entries ++ ms) := by
  induction ms generalizing map with
  | nil =>
    rw [List.append_nil]
    exact .refl hR _
  | cons m ms ih =>
    have hm : m.1 ∉ map.entries.map (·.1) := by
      rw [List.map_append, List.map_cons] at h
      exact fun hmem => (List.nodup_append.mp h).2.2 _ hmem _ List.mem_cons_self rfl
    have hinsert : Permuted R (map.insert m.1 m.2).entries (map.entries ++ [m]) :=
      Permuted.insertEntry hR m hm
    have hkeys := hinsert.append_right hR ms
    rw [List.append_assoc, List.singleton_append] at hkeys
    exact (ih _ (hkeys.keys_perm.nodup_iff.mpr h)).trans hkeys

theorem permuted_ofList {R : Json → Json → Prop} (hR : ∀ j, R j j) {ms : List (String × Json)}
    (h : (ms.map (·.1)).Nodup) : Permuted R (OrderedMap.ofList ms).entries ms :=
  permuted_foldl_insert hR ms OrderedMap.empty h

mutual

theorem same_canonical {n : Nat} (j : Json) (h : j.Writable n) : Same j.canonical j := by
  cases j with
  | array items =>
    cases n with
    | zero => exact h.elim
    | succ n => exact .array (forall₂_canonicalItems items h)
  | object members =>
    cases n with
    | zero => exact h.elim
    | succ n =>
      have hkeys := h.1
      rw [← map_fst_canonicalMembers] at hkeys
      exact .object ((permuted_ofList Same.refl hkeys).trans (permuted_canonicalMembers members h.2))
  | _ => exact .refl _

theorem forall₂_canonicalItems {n : Nat} (js : List Json) (h : WritableItems n js) :
    List.Forall₂ Same (canonicalItems js) js := by
  cases js with
  | nil => exact .nil
  | cons j js => exact .cons (same_canonical j h.1) (forall₂_canonicalItems js h.2)

theorem permuted_canonicalMembers {n : Nat} (ms : List (String × Json)) (h : WritableMembers n ms) :
    Permuted Same (canonicalMembers ms) ms := by
  cases ms with
  | nil => exact .nil
  | cons m ms => exact .cons m.1 (same_canonical m.2 h.1) (permuted_canonicalMembers ms h.2)

end

theorem writableMembers_of_permuted {n : Nat} {ms ms' : List (String × Json)}
    (h : Permuted Eq ms ms') (hms : WritableMembers n ms') : WritableMembers n ms := by
  induction h with
  | nil => exact hms
  | cons key hj h ih =>
    subst hj
    exact ⟨hms.1, ih hms.2⟩
  | swap ms hkeys => exact ⟨hms.2.1, hms.1, hms.2.2⟩
  | trans h h' ih ih' => exact ih (ih' hms)

mutual

theorem writable_canonical {n : Nat} (j : Json) (h : j.Writable n) : j.canonical.Writable n := by
  cases j with
  | array items =>
    cases n with
    | zero => exact h
    | succ n => exact writableItems_canonicalItems items h
  | object members =>
    cases n with
    | zero => exact h
    | succ n =>
      have hkeys := h.1
      rw [← map_fst_canonicalMembers] at hkeys
      have hpermuted := permuted_ofList (R := Eq) (fun _ => rfl) hkeys
      exact ⟨hpermuted.keys_perm.nodup_iff.mpr hkeys,
        writableMembers_of_permuted hpermuted (writableMembers_canonicalMembers members h.2)⟩
  | _ => exact h

theorem writableItems_canonicalItems {n : Nat} (js : List Json) (h : WritableItems n js) :
    WritableItems n (canonicalItems js) := by
  cases js with
  | nil => exact h
  | cons j js => exact ⟨writable_canonical j h.1, writableItems_canonicalItems js h.2⟩

theorem writableMembers_canonicalMembers {n : Nat} (ms : List (String × Json)) (h : WritableMembers n ms) :
    WritableMembers n (canonicalMembers ms) := by
  cases ms with
  | nil => exact h
  | cons m ms => exact ⟨writable_canonical m.2 h.1, writableMembers_canonicalMembers ms h.2⟩

end

end ClusterRegistration.Json
