import Mathlib.Data.List.Pairwise
import ClusterRegistration.Proofs.Object.Agreement
import ClusterRegistration.Proofs.Object.Stored

/-!
This module contains the proof that readers do not care for the order of members. The order decides
only which of several errors is found first.
-/

namespace ClusterRegistration

open Json Record

theorem Json.Permuted.foldlM_alike {σ : Type} {R : Json → Json → Prop} {E : σ → σ → Prop}
    {f : Origin → σ → String × Json → Item.Reader σ} {ms ms' : List (String × Json)}
    (h : Permuted R ms ms') (hrefl : ∀ j, R j j) (hE : ∀ s, E s s)
    (htrans : ∀ a b c, E a b → E b c → E a c)
    (hstep : ∀ o o' s s' key j j', E s s' → R j j' →
      Alike E (f o s (key, j)) (f o' s' (key, j')))
    (hswap : ∀ o s m m', m.1 ≠ m'.1 →
      Alike E (f o s m >>= fun s => f o s m') (f o s m' >>= fun s => f o s m))
    (o o' : Origin) {s s' : σ} (hs : E s s') :
    Alike E (ms.foldlM (f o) s) (ms'.foldlM (f o') s') := by
  -- For the same members in the same order, but from elsewhere.
  have hsame : ∀ (ms : List (String × Json)) (o o' : Origin) {s s' : σ}, E s s' →
      Alike E (ms.foldlM (f o) s) (ms.foldlM (f o') s') := by
    intro ms o o'
    induction ms with
    | nil => exact fun hs => .ok hs
    | cons m ms ih =>
      intro s s' hs
      rw [List.foldlM_cons, List.foldlM_cons]
      exact (hstep o o' s s' m.1 m.2 m.2 hs (hrefl _)).bind (fun _ _ h => ih h)
  induction h generalizing o s s' with
  | nil => exact .ok hs
  | cons key hj h ih =>
    rw [List.foldlM_cons, List.foldlM_cons]
    exact (hstep o o' s s' key _ _ hs hj).bind (fun _ _ h => ih o h)
  -- The two are read together, since `E` holds again only after both of them.
  | @swap m m' ms hkeys =>
    have hleft : Alike E (f o s m >>= fun s => f o s m')
        (f o' s' m >>= fun s => f o' s m') :=
      (hstep o o' s s' m.1 m.2 m.2 hs (hrefl _)).bind
        (fun a b h => hstep o o' a b m'.1 m'.2 m'.2 h (hrefl _))
    have hpair := hleft.trans htrans (hswap o' s' m m' hkeys)
    have hrest := hpair.bind (fun _ _ h => hsame ms o o' h)
    rw [bind_assoc, bind_assoc] at hrest
    exact hrest
  | trans h h' ih ih' => exact (ih o hs).trans htrans (ih' o' (hE s'))

namespace Record.Partial

variable {ρ : Type} {R : ρ → ρ → Prop} {other : String → Item → Item.Reader (ρ → ρ)}
  {fields : List (Field Item Item.Reader ρ)} {p p' : Partial ρ}

structure Akin (R : ρ → ρ → Prop) (p p' : Partial ρ) : Prop where
  value : R p.value p'.value
  seen : ∀ key, p.seen.contains key = p'.seen.contains key

theorem Akin.refl (hR : ∀ r, R r r) (p : Partial ρ) : Akin R p p :=
  ⟨hR _, fun _ => rfl⟩

theorem Akin.trans {p'' : Partial ρ} (hR : ∀ a b c, R a b → R b c → R a c) (h : Akin R p p')
    (h' : Akin R p' p'') : Akin R p p'' :=
  ⟨hR _ _ _ h.value h'.value, fun key => (h.seen key).trans (h'.seen key)⟩

def Respects (R : ρ → ρ → Prop) (change change' : ρ → ρ) : Prop :=
  ∀ r r', R r r' → R (change r) (change' r')

def change (other : String → Item → Item.Reader (ρ → ρ)) (fields : List (Field Item Item.Reader ρ))
    (key : String) (item : Item) : Item.Reader (ρ → ρ) :=
  match fields.find? (·.key == key) with
  | none => other key item
  | some field => field.read item

def mark (fields : List (Field Item Item.Reader ρ)) (key : String) (seen : List String) : List String :=
  if fields.any (·.key == key) then key :: seen else seen

def accept (other : String → Item → Item.Reader (ρ → ρ)) (fields : List (Field Item Item.Reader ρ))
    (seen : List String) (key : String) (item : Item) : Item.Reader (ρ → ρ) :=
  if fields.any (·.key == key) && seen.contains key then .error (.duplicateField key)
  else change other fields key item

theorem step_eq (p : Partial ρ) (key : String) (item : Item) :
    step other fields p key item =
      (fun g => ⟨mark fields key p.seen, g p.value⟩) <$> accept other fields p.seen key item := by
  unfold step accept change mark
  cases hfind : fields.find? (·.key == key) with
  | none =>
    have hany : fields.any (·.key == key) = false := by
      rw [← List.isSome_find?, hfind]
      rfl
    simp only [hany]
    rfl
  | some field =>
    have hany : fields.any (·.key == key) = true := by
      rw [← List.isSome_find?, hfind]
      rfl
    simp only [hany]
    cases p.seen.contains key <;> rfl

theorem contains_mark (key key' : String) (seen : List String) :
    (mark fields key seen).contains key' =
      (fields.any (·.key == key) && key' == key || seen.contains key') := by
  unfold mark
  cases fields.any (·.key == key)
  . rfl
  . rfl

theorem accept_mark {key key' : String} (h : key ≠ key') (seen : List String) (item : Item) :
    accept other fields (mark fields key seen) key' item = accept other fields seen key' item := by
  unfold accept
  rw [contains_mark, beq_eq_false_iff_ne.mpr h.symm, Bool.and_false, Bool.false_or]

theorem change_of_accept {seen : List String} {key : String} {item : Item} {g : ρ → ρ}
    (h : accept other fields seen key item = .ok g) : change other fields key item = .ok g := by
  unfold accept at h
  split at h
  . cases h
  . exact h

section Order

variable (hother : ∀ key i i', Same i.value i'.value →
    Alike (Respects R) (other key i) (other key i'))
  (hfields : ∀ f ∈ fields, ∀ i i', Same i.value i'.value →
    Alike (Respects R) (f.read i) (f.read i'))
  (hcommute : ∀ key key' i i' g g', key ≠ key' → change other fields key i = .ok g →
    change other fields key' i' = .ok g' → ∀ r, R (g (g' r)) (g' (g r)))

include hother hfields in
theorem step_alike (h : Akin R p p') {i i' : Item} (hi : Same i.value i'.value) (key : String) :
    Alike (Akin R) (step other fields p key i) (step other fields p' key i') := by
  have hchange : Alike (Respects R) (change other fields key i) (change other fields key i') := by
    unfold change
    cases hfind : fields.find? (·.key == key) with
    | none => exact hother key i i' hi
    | some field => exact hfields field (List.mem_of_find?_eq_some hfind) i i' hi
  have haccept : Alike (Respects R) (accept other fields p.seen key i)
      (accept other fields p'.seen key i') := by
    unfold accept
    rw [h.seen]
    split
    . exact .error _ _
    . exact hchange
  rw [step_eq, step_eq]
  refine haccept.map fun g g' hg => ⟨hg _ _ h.value, fun key' => ?_⟩
  rw [contains_mark, contains_mark, h.seen]

include hcommute in
theorem step_swap {key key' : String} (h : key ≠ key') (p : Partial ρ) (i i' : Item) :
    Alike (Akin R) (step other fields p key i >>= fun p => step other fields p key' i')
      (step other fields p key' i' >>= fun p => step other fields p key i) := by
  simp only [step_eq, bind_map_left, accept_mark h, accept_mark h.symm]
  cases hg : accept other fields p.seen key i with
  | error e =>
    cases accept other fields p.seen key' i' with
    | error e' => exact .error _ _
    | ok g' => exact .error _ _
  | ok g =>
    cases hg' : accept other fields p.seen key' i' with
    | error e' => exact .error _ _
    | ok g' =>
      have hgg := hcommute key' key i' i g' g h.symm (change_of_accept hg') (change_of_accept hg) p.value
      refine .ok ⟨hgg, fun key'' => ?_⟩
      simp only [contains_mark]
      rw [Bool.or_left_comm]

end Order

end Record.Partial

def Json.Item.Insensitive {α : Type} (read : Item → Reader α) : Prop :=
  ∀ i i', Same i.value i'.value → Alike Eq (read i) (read i')

namespace Json.Item.Insensitive

variable {α β ρ : Type} {read : Item → Reader α} {fields : List (Field Item Reader ρ)}

theorem map (f : α → β) (h : Insensitive read) : Insensitive (fun item => f <$> read item) := by
  intro i i' hi
  exact (h i i' hi).map (fun _ _ => congrArg f)

theorem of_leaf (harray : ∀ o js, ∃ e, read ⟨o, .array js⟩ = .error e)
    (hobject : ∀ o ms, ∃ e, read ⟨o, .object ms⟩ = .error e)
    (hleaf : ∀ o o' j, Alike Eq (read ⟨o, j⟩) (read ⟨o', j⟩)) : Insensitive read := by
  intro ⟨o, j⟩ ⟨o', j'⟩ h
  rcases h.cases with ⟨js, js', rfl, rfl, -⟩ | ⟨ms, ms', rfl, rfl, -⟩ | ⟨rfl, -⟩
  . obtain ⟨e, he⟩ := harray o js
    obtain ⟨e', he'⟩ := harray o' js'
    rw [he, he']
    exact .error _ _
  . obtain ⟨e, he⟩ := hobject o ms
    obtain ⟨e', he'⟩ := hobject o' ms'
    rw [he, he']
    exact .error _ _
  . exact hleaf o o' j

theorem text : Insensitive Item.text := by
  refine of_leaf (fun _ _ => ⟨_, rfl⟩) (fun _ _ => ⟨_, rfl⟩) (fun o o' j => ?_)
  cases j with
  | text s => exact .ok rfl
  | _ => exact .error _ _

theorem flag : Insensitive Item.flag := by
  refine of_leaf (fun _ _ => ⟨_, rfl⟩) (fun _ _ => ⟨_, rfl⟩) (fun o o' j => ?_)
  cases j with
  | flag b => exact .ok rfl
  | _ => exact .error _ _

theorem integer (low high : Int) (type : String) : Insensitive (Item.integer low high type) := by
  refine of_leaf (fun _ _ => ⟨_, rfl⟩) (fun _ _ => ⟨_, rfl⟩) (fun o o' j => ?_)
  cases j with
  | number n => exact .refl (fun _ => rfl) _
  | _ => exact .error _ _

theorem choice (name : String) (names : List String) : Insensitive (Item.choice name names) := by
  intro ⟨o, j⟩ ⟨o', j'⟩ hj
  rcases hj.cases with ⟨js, js', rfl, rfl, -⟩ | ⟨ms, ms', rfl, rfl, hms⟩ | ⟨rfl, -, hobject⟩
  . exact .error _ _
  . have hlength := hms.keys_perm.length_eq
    match ms, ms', hlength with
    | [], [], _ => exact .error _ _
    | [(key, j)], ms', _ =>
      obtain ⟨j', rfl, hnull⟩ := hms.exists_of_singleton (P := (· = .null)) (fun _ _ h => h.null_iff)
      refine Alike.bind (.refl (fun _ => rfl) (chosen names key)) (fun a b hab => ?_)
      cases hab
      by_cases h : j = .null
      . rw [h, hnull.mp h]
        exact .ok rfl
      . have h' : j' ≠ .null := fun hj' => h (hnull.mpr hj')
        split
        . contradiction
        . exact .error _ _
    | _ :: _ :: _, _ :: _ :: _, _ => exact .error _ _
  . cases j with
    | text s => exact .refl (fun _ => rfl) _
    | object ms => exact absurd rfl (hobject ms)
    | _ => exact .error _ _

theorem optional (h : Insensitive read) : Insensitive (Item.optional read) := by
  intro i i' hi
  have hread := (h i i' hi).map (S := Eq) (fun _ _ => congrArg some)
  unfold Item.optional
  by_cases hnull : i.value = .null
  . rw [hnull, hi.null_iff.mp hnull]
    exact .ok rfl
  . have hnull' : i'.value ≠ .null := fun h => hnull (hi.null_iff.mpr h)
    split
    . contradiction
    . exact hread

theorem list (h : Insensitive read) : Insensitive (Item.list read) := by
  intro ⟨o, j⟩ ⟨o', j'⟩ hj
  rcases hj.cases with ⟨js, js', rfl, rfl, hjs⟩ | ⟨ms, ms', rfl, rfl, -⟩ | ⟨rfl, harray, -⟩
  . have hitems := Alike.mapM hjs (fun j j' hj => h ⟨o, j⟩ ⟨o', j'⟩ hj)
    exact hitems.mono (fun _ _ h => List.forall₂_eq_eq_eq ▸ h)
  . exact .error _ _
  . cases j with
    | array js => exact absurd rfl (harray js)
    | _ => exact .error _ _

theorem fieldsInOrder {all fs : List (Field Item Reader ρ)} (name : String) (o o' : Origin)
    (hfs : ∀ f ∈ fs, Insensitive f.read) (total total' i : Nat) {js js' : List Json}
    (hjs : List.Forall₂ Same js js') (r : ρ) :
    Alike Eq (Item.fieldsInOrder name all o total i fs js r)
      (Item.fieldsInOrder name all o' total' i fs js' r) := by
  induction fs generalizing i js js' r with
  | nil =>
    cases hjs with
    | nil => exact .ok rfl
    | cons hj hjs =>
      unfold Item.fieldsInOrder surplus
      cases o <;> cases o' <;> exact .error _ _
  | cons f fs ih =>
    have hfs' : ∀ f ∈ fs, Insensitive f.read := fun f hf => hfs f (List.mem_cons_of_mem _ hf)
    cases hjs with
    | nil =>
      unfold Item.fieldsInOrder
      split
      . exact ih hfs' _ .nil r
      . exact .error _ _
    | @cons j j' js js' hj hjs =>
      have hf := hfs f List.mem_cons_self ⟨o, j⟩ ⟨o', j'⟩ hj
      exact hf.bind (fun set set' hset => hset ▸ ih hfs' _ hjs _)

end Json.Item.Insensitive

namespace Dictionary

def readEntry (o : Origin) (es : List (String × String)) (m : String × Json) :
    Item.Reader (List (String × String)) :=
  (fun s => es ++ [(m.1, s)]) <$> Item.text ⟨o, m.2⟩

theorem readEntry_alike (o o' : Origin) (es es' : List (String × String)) (key : String)
    (j j' : Json) (hes : OrderedMap.ofList es = OrderedMap.ofList es') (hj : Same j j') :
    Alike (fun es es' => OrderedMap.ofList es = OrderedMap.ofList es')
      (readEntry o es (key, j)) (readEntry o' es' (key, j')) := by
  refine (Item.Insensitive.text ⟨o, j⟩ ⟨o', j'⟩ hj).map (fun a b hab => ?_)
  rw [OrderedMap.ofList_append, OrderedMap.ofList_append, hes, hab]

theorem readEntry_swap (o : Origin) (es : List (String × String)) (m m' : String × Json)
    (h : m.1 ≠ m'.1) :
    Alike (fun es es' => OrderedMap.ofList es = OrderedMap.ofList es')
      (readEntry o es m >>= fun es => readEntry o es m')
      (readEntry o es m' >>= fun es => readEntry o es m) := by
  simp only [readEntry, bind_map_left]
  cases Item.text ⟨o, m.2⟩ with
  | error e =>
    cases Item.text ⟨o, m'.2⟩ with
    | error e' => exact .error _ _
    | ok a' => exact .error _ _
  | ok a =>
    cases Item.text ⟨o, m'.2⟩ with
    | error e' => exact .error _ _
    | ok a' =>
      refine .ok ?_
      simp only [OrderedMap.ofList_append, List.foldl_cons, List.foldl_nil]
      exact OrderedMap.insert_comm _ h _ _

theorem read_insensitive : Item.Insensitive Dictionary.read := by
  intro ⟨o, j⟩ ⟨o', j'⟩ hj
  rcases hj.cases with ⟨js, js', rfl, rfl, -⟩ | ⟨ms, ms', rfl, rfl, hms⟩ | ⟨rfl, -, hobject⟩
  . exact .error _ _
  . have hentries := hms.foldlM_alike (E := fun es es' => OrderedMap.ofList es = OrderedMap.ofList es')
      Same.refl (fun _ => rfl) (fun _ _ _ => Eq.trans) readEntry_alike readEntry_swap o o' (s := []) rfl
    exact hentries.map (fun _ _ h => h)
  . cases j with
    | object ms => exact absurd rfl (hobject ms)
    | _ => exact .error _ _

end Dictionary

namespace Record.Partial

variable {ρ : Type} {R : ρ → ρ → Prop} {p p' : Partial ρ}

theorem finish_alike {fields : List (Field Item Item.Reader ρ)} (h : Akin R p p') :
    Alike R (p.finish fields : Item.Reader ρ) (p'.finish fields : Item.Reader ρ) := by
  unfold finish
  simp only [h.seen]
  split
  . exact .error _ _
  . exact .ok h.value

theorem change_eq_ok {other : String → Item → Item.Reader (ρ → ρ)}
    {fields : List (Field Item Item.Reader ρ)} {key : String} {item : Item} {g : ρ → ρ}
    (h : change other fields key item = .ok g) :
    other key item = .ok g ∨ ∃ f ∈ fields, f.key = key ∧ f.read item = .ok g := by
  unfold change at h
  cases hfind : fields.find? (·.key == key) with
  | none =>
    rw [hfind] at h
    exact .inl h
  | some f =>
    rw [hfind] at h
    have hkey := List.find?_some hfind
    rw [beq_iff_eq] at hkey
    exact .inr ⟨f, List.mem_of_find?_eq_some hfind, hkey, h⟩

theorem change_commutes {fields : List (Field Item Item.Reader ρ)}
    (hfields : fields.Pairwise Field.Commutes) (key key' : String) (i i' : Item) (g g' : ρ → ρ)
    (h : key ≠ key') (hg : change (fun _ _ => pure id) fields key i = .ok g)
    (hg' : change (fun _ _ => pure id) fields key' i' = .ok g') (r : ρ) : g (g' r) = g' (g r) := by
  rcases change_eq_ok hg with hg | ⟨f, hf, hkey, hg⟩
  . cases hg
    rfl
  . rcases change_eq_ok hg' with hg' | ⟨f', hf', hkey', hg'⟩
    . cases hg'
      rfl
    . have hne : f ≠ f' := fun heq => h (hkey.symm.trans ((congrArg Field.key heq).trans hkey'))
      exact hfields.forall hf hf' hne i i' g g' hg hg' r

end Record.Partial

namespace Json.Item.Insensitive

variable {ρ : Type} {fields : List (Field Item Reader ρ)}

theorem record (name : String) (start : ρ) (hfields : ∀ f ∈ fields, Insensitive f.read)
    (hcommute : fields.Pairwise Field.Commutes) : Insensitive (Item.record name fields start) := by
  intro ⟨o, j⟩ ⟨o', j'⟩ hj
  rcases hj.cases with ⟨js, js', rfl, rfl, hjs⟩ | ⟨ms, ms', rfl, rfl, hms⟩ | ⟨rfl, harray, hobject⟩
  . exact fieldsInOrder name o o' hfields _ _ 0 hjs start
  . have hmembers := hms.foldlM_alike (E := Partial.Akin Eq)
      (f := fun o p m => Partial.step (fun _ _ => pure id) fields p m.1 ⟨o, m.2⟩)
      Same.refl (Partial.Akin.refl (fun _ => rfl)) (fun _ _ _ => Partial.Akin.trans (fun _ _ _ => Eq.trans))
      (fun o o' p p' key j j' hp hj => Partial.step_alike
        (fun _ _ _ _ => .ok (fun _ _ h => h))
        (fun f hf i i' hi => (hfields f hf i i' hi).mono (fun g g' hg r r' hr => by rw [hg, hr]))
        hp hj key)
      (fun o p m m' hkeys => Partial.step_swap
        (fun key key' i i' g g' h hg hg' r => Partial.change_commutes hcommute key key' i i' g g' h hg hg' r)
        hkeys p ⟨o, m.2⟩ ⟨o, m'.2⟩)
      o o' (Partial.Akin.refl (fun _ => rfl) (Partial.start start))
    exact hmembers.bind (fun _ _ h => Partial.finish_alike h)
  . cases j with
    | array js => exact absurd rfl (harray js)
    | object ms => exact absurd rfl (hobject ms)
    | _ => exact .error _ _

end Json.Item.Insensitive

namespace WithOthers

variable {ρ η α : Type} {fields : List (Field Item Item.Reader ρ)}

structure Like (r r' : WithOthers ρ) : Prop where
  value : r.value = r'.value
  others : Permuted Same r.others r'.others

theorem Like.refl (r : WithOthers ρ) : Like r r :=
  ⟨rfl, .refl Same.refl _⟩

theorem Like.trans (r r' r'' : WithOthers ρ) (h : Like r r') (h' : Like r' r'') : Like r r'' :=
  ⟨h.value.trans h'.value, h.others.trans h'.others⟩

theorem keep_alike (key : String) (i i' : Item) (h : Same i.value i'.value) :
    Alike (Partial.Respects (Like (ρ := ρ))) (keep key i : Item.Reader _) (keep key i' : Item.Reader _) := by
  refine .ok (fun r r' hr => ⟨hr.value, ?_⟩)
  exact (hr.others.append_right Same.refl _).trans (.append_left Same.refl _ (.cons key h .nil))

theorem field_alike {f : Field Item Item.Reader ρ} (hf : Item.Insensitive f.read) (i i' : Item)
    (h : Same i.value i'.value) :
    Alike (Partial.Respects Like) ((field f).read i) ((field f).read i') := by
  refine (hf i i' h).map (fun set set' hset r r' hr => ⟨?_, hr.others⟩)
  rw [hset, hr.value]

theorem exists_of_field_read {f : Field Item Item.Reader ρ} {i : Item}
    {g : WithOthers ρ → WithOthers ρ} (h : (field f).read i = .ok g) :
    ∃ set, f.read i = .ok set ∧ g = fun r => { r with value := set r.value } := by
  cases hread : f.read i with
  | error e =>
    simp only [field, hread] at h
    cases h
  | ok set =>
    simp only [field, hread] at h
    cases h
    exact ⟨set, rfl, rfl⟩

theorem change_commutes (hfields : fields.Pairwise Field.Commutes) (key key' : String) (i i' : Item)
    (g g' : WithOthers ρ → WithOthers ρ) (h : key ≠ key')
    (hg : Partial.change keep (fields.map field) key i = .ok g)
    (hg' : Partial.change keep (fields.map field) key' i' = .ok g') (r : WithOthers ρ) :
    Like (g (g' r)) (g' (g r)) := by
  rcases Partial.change_eq_ok hg with hg | ⟨f, hf, hkey, hg⟩
  . cases hg
    rcases Partial.change_eq_ok hg' with hg' | ⟨f', hf', hkey', hg'⟩
    . cases hg'
      refine ⟨rfl, ?_⟩
      show Permuted Same (r.others ++ [(key', i'.value)] ++ [(key, i.value)])
        (r.others ++ [(key, i.value)] ++ [(key', i'.value)])
      rw [List.append_assoc, List.append_assoc]
      exact .append_left Same.refl _ (.swap [] h.symm)
    . obtain ⟨f', hmem', rfl⟩ := List.mem_map.mp hf'
      obtain ⟨set', hset', rfl⟩ := exists_of_field_read hg'
      exact .refl _
  . obtain ⟨f, hmem, rfl⟩ := List.mem_map.mp hf
    obtain ⟨set, hset, rfl⟩ := exists_of_field_read hg
    rcases Partial.change_eq_ok hg' with hg' | ⟨f', hf', hkey', hg'⟩
    . cases hg'
      exact .refl _
    . obtain ⟨f', hmem', rfl⟩ := List.mem_map.mp hf'
      obtain ⟨set', hset', rfl⟩ := exists_of_field_read hg'
      have hne : f ≠ f' := fun heq => h (hkey.symm.trans ((congrArg Field.key heq).trans hkey'))
      refine ⟨?_, .refl Same.refl _⟩
      exact hfields.forall hmem hmem' hne i i' set set' hset hset' r.value

theorem read_alike (name : String) (start : ρ) (hfields : ∀ f ∈ fields, Item.Insensitive f.read)
    (hcommute : fields.Pairwise Field.Commutes) (i i' : Item) (h : Same i.value i'.value) :
    Alike Like (WithOthers.read name fields start i : Item.Reader _)
      (WithOthers.read name fields start i' : Item.Reader _) := by
  obtain ⟨o, j⟩ := i
  obtain ⟨o', j'⟩ := i'
  rcases h.cases with ⟨js, js', rfl, rfl, hjs⟩ | ⟨ms, ms', rfl, rfl, hms⟩ | ⟨rfl, harray, hobject⟩
  . exact .error _ _
  . have hread : ∀ f ∈ fields.map field, ∀ i i', Same i.value i'.value →
        Alike (Partial.Respects Like) (f.read i) (f.read i') := by
      intro f hf i i' hi
      obtain ⟨f', hf', rfl⟩ := List.mem_map.mp hf
      exact field_alike (hfields f' hf') i i' hi
    have hmembers := hms.foldlM_alike (E := Partial.Akin Like) (f := fun o p m => readMember fields o p m)
      Same.refl (Partial.Akin.refl Like.refl) (fun _ _ _ => Partial.Akin.trans Like.trans)
      (fun o o' p p' key j j' hp hj => Partial.step_alike keep_alike hread hp hj key)
      (fun o p m m' hkeys => Partial.step_swap (change_commutes hcommute) hkeys p ⟨o, m.2⟩ ⟨o, m'.2⟩)
      o o' (Partial.Akin.refl Like.refl (Partial.start ⟨start, []⟩))
    exact hmembers.bind (fun _ _ h => Partial.finish_alike h)
  . cases j with
    | array js => exact absurd rfl (harray js)
    | object ms => exact absurd rfl (hobject ms)
    | _ => exact .error _ _

end WithOthers

theorem Json.Item.ofExcept_eq {α : Type} (x : Except Mismatch α) :
    (Refusal.ofExcept x : Item.Reader α) = x := by
  cases x with
  | ok a => rfl
  | error e => rfl

namespace Agreement

theorem fields_eq {ρ : Type} {fields fields' : List (Field Item Item.Reader ρ)}
    (h : List.Forall₂ (Field.Related (fun r r' => r = r' ∧ Item.Insensitive r')) fields fields') :
    fields = fields' ∧ ∀ f ∈ fields', Item.Insensitive f.read := by
  induction h with
  | nil => exact ⟨rfl, by simp⟩
  | @cons f g fs gs hfg h ih =>
    obtain ⟨key, presence, read⟩ := f
    obtain ⟨hkey, hpresence, hread, hg⟩ := hfg
    refine ⟨?_, List.forall_mem_cons.mpr ⟨hg, ih.2⟩⟩
    rw [ih.1]
    cases hkey
    cases hpresence
    cases hread
    rfl

def reordering : Agreement Item Item.Reader where
  Agree read read' := read = read' ∧ Item.Insensitive read'
  map f h := ⟨by rw [h.1], h.2.map f⟩
  text := ⟨rfl, .text⟩
  flag := ⟨rfl, .flag⟩
  integer low high type := ⟨rfl, .integer low high type⟩
  choice name names := ⟨rfl, .choice name names⟩
  dictionary := ⟨rfl, Dictionary.read_insensitive⟩
  optional h := ⟨by rw [h.1], h.2.optional⟩
  list h := ⟨by rw [h.1], h.2.list⟩
  record name _ _ start h hcommute :=
    ⟨by rw [(fields_eq h).1], .record name start (fields_eq h).2 hcommute⟩
  withHeader name _ _ start header finish h hcommute hheader := by
    obtain ⟨rfl, hfields⟩ := fields_eq h
    refine ⟨rfl, fun i i' hi => ?_⟩
    refine (WithOthers.read_alike name start hfields hcommute i i' hi).bind (fun r r' hr => ?_)
    rw [hr.value, Item.ofExcept_eq, Item.ofExcept_eq]
    exact (hheader _ _ hr.others).bind (fun _ _ h => .ok (congrArg (finish r'.value) h))

end Agreement

end ClusterRegistration
