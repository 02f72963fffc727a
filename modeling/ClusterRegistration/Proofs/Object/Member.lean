import ClusterRegistration.Proofs.Object.Reordering

namespace ClusterRegistration

open Record Json

def Json.named (key : String) (ms : List (String × Json)) : List Json :=
  (ms.filter (·.1 == key)).map (·.2)

section Named

variable {key : String} {m : String × Json} {ms : List (String × Json)}

theorem Json.named_cons_of_eq (h : m.1 = key) : named key (m :: ms) = m.2 :: named key ms := by
  unfold named
  rw [List.filter_cons, if_pos (beq_iff_eq.mpr h), List.map_cons]

theorem Json.named_cons_of_ne (h : m.1 ≠ key) : named key (m :: ms) = named key ms := by
  unfold named
  rw [List.filter_cons, if_neg (fun heq => h (beq_iff_eq.mp heq))]

end Named

namespace Record

variable {ρ α β : Type} {other : String → Item → Item.Reader (ρ → ρ)} {fields : List (Field Item Item.Reader ρ)}
  {o : Origin} {key : String} {get : ρ → β}

def Field.Spares (get : ρ → β) (f : Field Item Item.Reader ρ) : Prop :=
  ∀ item set, f.read item = .ok set → ∀ r, get (set r) = get r

theorem Field.spares_of_set {presence : Presence} {read : Item → Item.Reader α} {set : α → ρ → ρ}
    (h : ∀ a r, get (set a r) = get r) : Spares get ⟨key, presence, fun item => set <$> read item⟩ := by
  intro item set' hset
  obtain ⟨a, -, rfl⟩ := exists_of_map_eq_ok hset
  exact h a

namespace Partial

variable {p p' : Partial ρ} {ms : List (String × Json)}

theorem exists_of_step {item : Item} (h : step other fields p key item = .ok p') :
    ∃ g, accept other fields p.seen key item = .ok g ∧ p' = ⟨mark fields key p.seen, g p.value⟩ := by
  rw [step_eq] at h
  cases haccept : accept other fields p.seen key item with
  | error e =>
    rw [haccept] at h
    cases h
  | ok g =>
    rw [haccept] at h
    cases h
    exact ⟨g, rfl, rfl⟩

theorem value_of_finish {r : ρ} (h : (p.finish fields : Item.Reader ρ) = .ok r) : p.value = r := by
  unfold finish at h
  split at h
  . cases h
  . cases h
    rfl

theorem any_of_find? {f : Field Item Item.Reader ρ} (h : fields.find? (·.key == key) = some f) :
    fields.any (·.key == key) = true := by
  rw [← List.isSome_find?, h]
  rfl

theorem named_eq_nil_of_seen (hkey : fields.any (·.key == key) = true) (hseen : p.seen.contains key = true)
    (h : ms.foldlM (fun p m => step other fields p m.1 ⟨o, m.2⟩) p = .ok p') : named key ms = [] := by
  induction ms generalizing p with
  | nil => rfl
  | cons m ms ih =>
    rw [List.foldlM_cons] at h
    obtain ⟨p₁, hstep, h⟩ := exists_of_bind_eq_ok h
    obtain ⟨g, haccept, rfl⟩ := exists_of_step hstep
    by_cases hm : m.1 = key
    . subst hm
      unfold accept at haccept
      rw [hkey, hseen] at haccept
      cases haccept
    . rw [named_cons_of_ne hm]
      refine ih ?_ h
      rw [contains_mark, hseen, Bool.or_true]

variable (get) {P : Json → β → Prop} (hkey : fields.any (·.key == key) = true)
  (hread : ∀ j g, change other fields key ⟨o, j⟩ = .ok g → ∀ r, P j (get (g r)))
  (hspared : ∀ key' j g, key' ≠ key → change other fields key' ⟨o, j⟩ = .ok g → ∀ r, get (g r) = get r)

include hkey hread hspared in
theorem named_of_foldlM (h : ms.foldlM (fun p m => step other fields p m.1 ⟨o, m.2⟩) p = .ok p') :
    (∃ j, named key ms = [j] ∧ P j (get p'.value)) ∨ named key ms = [] ∧ get p'.value = get p.value := by
  -- Once its member has been read, the name is marked, and another member of it is refused.
  induction ms generalizing p with
  | nil =>
    cases h
    exact .inr ⟨rfl, rfl⟩
  | cons m ms ih =>
    rw [List.foldlM_cons] at h
    obtain ⟨p₁, hstep, h⟩ := exists_of_bind_eq_ok h
    obtain ⟨g, haccept, rfl⟩ := exists_of_step hstep
    have hchange := change_of_accept haccept
    by_cases hm : m.1 = key
    . subst hm
      have hseen : (mark fields m.1 p.seen).contains m.1 = true := by
        rw [contains_mark, hkey, beq_self_eq_true]
        rfl
      have hrest : named m.1 ms = [] := named_eq_nil_of_seen hkey hseen h
      rw [named_cons_of_eq rfl, hrest]
      rcases ih h with ⟨j, hj, -⟩ | ⟨-, hget⟩
      . rw [hrest] at hj
        cases hj
      . rw [hget]
        exact .inl ⟨m.2, rfl, hread m.2 g hchange p.value⟩
    . rw [named_cons_of_ne hm]
      rcases ih h with hj | ⟨hnil, hget⟩
      . exact .inl hj
      . refine .inr ⟨hnil, ?_⟩
        rw [hget]
        exact hspared m.1 m.2 g hm hchange p.value

end Partial

end Record

section Records

variable {ρ α : Type} {fields : List (Field Item Item.Reader ρ)} {o : Origin} (key : String)
  {presence : Presence} {read : Item → Item.Reader α} {set : α → ρ → ρ} (get : ρ → α)
  {ms : List (String × Json)}
  (hfield : fields.find? (·.key == key) = some ⟨key, presence, fun item => set <$> read item⟩)
  (hset : ∀ a r, get (set a r) = a)
  (hspared : ∀ f ∈ fields, f.key ≠ key → f.Spares get)

include hset in
theorem Record.Field.read_of_map {item : Item} {g : ρ → ρ} (h : set <$> read item = .ok g) (r : ρ) :
    read item = .ok (get (g r)) := by
  obtain ⟨a, hread, rfl⟩ := exists_of_map_eq_ok h
  rw [hread, hset]

include hfield hset hspared in
theorem Json.Item.named_of_record {name : String} {start r : ρ}
    (h : (Source.record name fields start (⟨o, .object ms⟩ : Item) : Item.Reader ρ) = .ok r) :
    (∃ j, named key ms = [j] ∧ read ⟨o, j⟩ = .ok (get r)) ∨ named key ms = [] ∧ get r = get start := by
  rw [record_object] at h
  obtain ⟨p, hmembers, hfinish⟩ := exists_of_bind_eq_ok h
  obtain rfl := Partial.value_of_finish hfinish
  refine Partial.named_of_foldlM get (P := fun j a => read ⟨o, j⟩ = .ok a) (Partial.any_of_find? hfield) ?_ ?_
    hmembers
  . intro j g hchange r
    unfold Partial.change at hchange
    rw [hfield] at hchange
    exact Record.Field.read_of_map get hset hchange r
  . intro key' j g hne hchange r
    rcases Partial.change_eq_ok hchange with hother | ⟨f, hf, hkey, hg⟩
    . cases hother
      rfl
    . exact hspared f hf (fun heq => hne (hkey.symm.trans heq)) _ _ hg r

include hfield hset hspared in
theorem WithOthers.named_of_read {name : String} {start : ρ} {r : WithOthers ρ}
    (h : (WithOthers.read name fields start (⟨o, .object ms⟩ : Item) : Item.Reader (WithOthers ρ)) = .ok r) :
    (∃ j, named key ms = [j] ∧ read ⟨o, j⟩ = .ok (get r.value)) ∨
      named key ms = [] ∧ get r.value = get start := by
  rw [read_object] at h
  obtain ⟨p, hmembers, hfinish⟩ := exists_of_bind_eq_ok h
  obtain rfl := Partial.value_of_finish hfinish
  have hfield' : (fields.map field).find? (·.key == key) =
      some (field ⟨key, presence, fun item => set <$> read item⟩) := by
    rw [find?_map_field, hfield, Option.map_some]
  refine Partial.named_of_foldlM (fun r => get r.value) (P := fun j a => read ⟨o, j⟩ = .ok a)
    (Partial.any_of_find? hfield') ?_ ?_ hmembers
  . intro j g hchange r
    unfold Partial.change at hchange
    rw [hfield'] at hchange
    obtain ⟨set', hset', rfl⟩ := exists_of_field_read hchange
    exact Record.Field.read_of_map get hset hset' r.value
  . intro key' j g hne hchange r
    rcases Partial.change_eq_ok hchange with hother | ⟨f, hf, hkey, hg⟩
    . cases hother
      rfl
    . obtain ⟨f, hmem, rfl⟩ := List.mem_map.mp hf
      obtain ⟨set', hset', rfl⟩ := exists_of_field_read hg
      exact hspared f hmem (fun heq => hne (hkey.symm.trans heq)) _ _ hset' r.value

end Records

end ClusterRegistration
