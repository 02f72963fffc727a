import ClusterRegistration.Proofs.Store.Creation

namespace ClusterRegistration.Store

variable {k : Kind}

def readEntries (k : Kind) (scope : Scope) (es : List (Key × Json)) :
    Except Error (List (Object k)) :=
  (es.filter (fun e => isIn k scope e.1)).mapM (fun e => asKind k e.2)

theorem list_eq (s : Store) (k : Kind) (scope : Scope) :
    s.list k scope = ObjectList.ofItems <$> readEntries k scope s.objects.entries :=
  rfl

theorem readEntries_append (scope : Scope) (es es' : List (Key × Json)) :
    readEntries k scope (es ++ es') =
      (do return (← readEntries k scope es) ++ (← readEntries k scope es')) := by
  rw [readEntries, List.filter_append, List.mapM_append]
  rfl

theorem readEntries_cons_of_not_isIn {scope : Scope} {key : Key} (h : isIn k scope key = false)
    (j : Json) (es : List (Key × Json)) :
    readEntries k scope ((key, j) :: es) = readEntries k scope es := by
  rw [readEntries, List.filter_cons_of_neg]
  . rfl
  . rw [Bool.not_eq_true]
    exact h

theorem readEntries_cons_of_isIn {scope : Scope} {key : Key} {o : Object k} (hfits : o.Fits)
    (h : isIn k scope key = true) (es : List (Key × Json)) :
    readEntries k scope ((key, stored o) :: es) =
      (do return o :: (← readEntries k scope es)) := by
  have hfilter : ((key, stored o) :: es).filter (fun e => isIn k scope e.1) =
      (key, stored o) :: es.filter (fun e => isIn k scope e.1) := by
    apply List.filter_cons_of_pos
    exact h
  rw [readEntries, hfilter, List.mapM_cons, asKind_stored hfits]
  rfl

def firstIn (s : Store) (k : Kind) (scope : Scope) (p : Object k → Bool) :
    Except Error (Option (Object k)) :=
  (fun l => l.items.find? p) <$> s.list k scope

theorem firstIn_eq (s : Store) (k : Kind) (scope : Scope) (p : Object k → Bool) :
    s.firstIn k scope p = List.find? p <$> readEntries k scope s.objects.entries := by
  rw [firstIn, list_eq]
  cases readEntries k scope s.objects.entries <;> rfl

theorem firstIn_write_of_not_isIn {s : Store} {k' : Kind} {scope : Scope} {key : Key}
    (hkey : s.objects.contains key = false) (h : isIn k scope key = false) (o : Object k')
    (p : Object k → Bool) : (s.write key o).firstIn k scope p = s.firstIn k scope p := by
  rw [OrderedMap.contains_eq_false_iff] at hkey
  obtain ⟨es, es', hold, hnew⟩ := OrderedMap.exists_entries_insert s.objects (stored o) hkey
  rw [firstIn_eq, firstIn_eq, write, hold, hnew]
  rw [readEntries_append, readEntries_append, readEntries_cons_of_not_isIn h]

section InScope

variable {s : Store} {scope : Scope} {key : Key} {o : Object k} {p : Object k → Bool}

theorem firstIn_write_of_not (hkey : s.objects.contains key = false)
    (hin : isIn k scope key = true) (hfits : o.Fits) (h : p o = false) :
    (s.write key o).firstIn k scope p = s.firstIn k scope p := by
  rw [OrderedMap.contains_eq_false_iff] at hkey
  obtain ⟨es, es', hold, hnew⟩ := OrderedMap.exists_entries_insert s.objects (stored o) hkey
  rw [firstIn_eq, firstIn_eq, write, hold, hnew]
  rw [readEntries_append, readEntries_append, readEntries_cons_of_isIn hfits hin]
  cases readEntries k scope es with
  | error e => rfl
  | ok objects =>
    cases readEntries k scope es' with
    | error e => rfl
    | ok objects' =>
      show Except.ok ((objects ++ o :: objects').find? p) = .ok ((objects ++ objects').find? p)
      rw [List.find?_append, List.find?_append, List.find?_cons, h]

theorem firstIn_write_of_none (hkey : s.objects.contains key = false)
    (hin : isIn k scope key = true) (hfits : o.Fits) (h : p o = true)
    (hnone : s.firstIn k scope p = .ok none) :
    (s.write key o).firstIn k scope p = .ok (some o) := by
  rw [OrderedMap.contains_eq_false_iff] at hkey
  obtain ⟨es, es', hold, hnew⟩ := OrderedMap.exists_entries_insert s.objects (stored o) hkey
  rw [firstIn_eq, hold, readEntries_append] at hnone
  rw [firstIn_eq, write, hnew, readEntries_append, readEntries_cons_of_isIn hfits hin]
  cases hes : readEntries k scope es with
  | error e =>
    rw [hes] at hnone
    cases hnone
  | ok objects =>
    cases hes' : readEntries k scope es' with
    | error e =>
      rw [hes, hes'] at hnone
      cases hnone
    | ok objects' =>
      rw [hes, hes'] at hnone
      -- Neither the objects before the new one nor those after it are looked for.
      have hnone : (objects ++ objects').find? p = none := by
        injection hnone
      rw [List.find?_append, Option.or_eq_none_iff] at hnone
      show Except.ok ((objects ++ o :: objects').find? p) = .ok (some o)
      rw [List.find?_append, hnone.1, List.find?_cons, h]
      rfl

end InScope

theorem firstIn_ensure {k' : Kind} {s : Store} {scope : Scope} {input : ObjectInput k'} {p : Object k → Bool}
    (h : s.objects.contains (inputKey input) = false →
      (s.write (inputKey input) (created input (s.version + 1))).firstIn k scope p = s.firstIn k scope p) :
    (s.ensure input).firstIn k scope p = s.firstIn k scope p := by
  cases hkey : s.objects.contains (inputKey input) with
  | true => rw [ensure_of_contains hkey]
  | false =>
    rw [ensure_of_absent hkey]
    exact h hkey

theorem firstIn_ensure_of_definition_ne {k' : Kind} (s : Store) (scope : Scope)
    (input : ObjectInput k') (h : k'.definition ≠ k.definition) (p : Object k → Bool) :
    (s.ensure input).firstIn k scope p = s.firstIn k scope p := by
  apply firstIn_ensure
  intro hkey
  apply firstIn_write_of_not_isIn hkey
  have hdefinition : decide ((inputKey input).definition = k.definition) = false :=
    decide_eq_false h
  unfold isIn
  rw [hdefinition, Bool.false_and]

theorem firstIn_ensure_of_not {s : Store} {scope : Scope} {input : ObjectInput k}
    {p : Object k → Bool} (hfits : k.SpecFits input.spec)
    (h : ∀ version, p (created input version) = false) :
    (s.ensure input).firstIn k scope p = s.firstIn k scope p := by
  apply firstIn_ensure
  intro hkey
  cases hin : isIn k scope (inputKey input) with
  | true => exact firstIn_write_of_not hkey hin (fits_created hfits _) (h _)
  | false => exact firstIn_write_of_not_isIn hkey hin _ p

end ClusterRegistration.Store
