import ClusterRegistration.Proofs.Registration.Transcript

namespace ClusterRegistration.Registration

def Event.creates (key : Store.Key) : Event → Bool
  | ⟨.ask .destination _ (.create k input), outcome⟩ =>
    match (outcome : Except ClusterError (Object k)) with
    | .ok _ => Store.inputKey input = key
    | .error _ => false
  | _ => false

structure Impact (es : List Event) (d d' : Store) : Prop where
  kept : ∀ key j, d.objects.get? key = some j → d'.objects.get? key = some j
  new : ∀ key j, d.objects.get? key = none → d'.objects.get? key = some j →
    ∃ e ∈ es, ∃ (operation : String) (k : Kind) (input : ObjectInput k) (version : Nat),
      e.action = .ask .destination operation (.create k input) ∧ key = Store.inputKey input ∧
        j = Store.stored (Store.created input version)
  counted : ∀ key, (if d'.objects.contains key then 1 else 0) =
    (if d.objects.contains key then 1 else 0) + es.countP (fun e => e.creates key)
  acknowledged : ∀ x, x.side = .destination → Established es x →
    d'.objects.contains (Store.inputKey x.input) = true

theorem established_append {es es' : List Event} {x : Write} :
    Established (es ++ es') x ↔ Established es x ∨ Established es' x := by
  constructor
  . rintro ⟨operation, answer, created, hmem, hok⟩
    rcases List.mem_append.mp hmem with hmem | hmem
    . exact .inl ⟨operation, answer, created, hmem, hok⟩
    . exact .inr ⟨operation, answer, created, hmem, hok⟩
  . rintro (h | h)
    . exact established_mono (List.subset_append_left _ _) h
    . exact established_mono (List.subset_append_right _ _) h

namespace Impact

variable {d d' d'' : Store} {es es' : List Event}

theorem contains (h : Impact es d d') {key : Store.Key} (hkey : d.objects.contains key = true) :
    d'.objects.contains key = true := by
  obtain ⟨j, hj⟩ := (OrderedMap.contains_iff _ _).mp hkey
  exact OrderedMap.contains_of_get? (h.kept key j hj)

theorem append (h : Impact es d d') (h' : Impact es' d' d'') : Impact (es ++ es') d d'' where
  kept key j hj := h'.kept key j (h.kept key j hj)
  new key j hnone hsome := by
    -- What is new was created by the first ones or by the others, as it is created once.
    cases hbetween : d'.objects.get? key with
    | none =>
      obtain ⟨e, he, hcreates⟩ := h'.new key j hbetween hsome
      exact ⟨e, List.mem_append_right _ he, hcreates⟩
    | some j' =>
      have hsame := h'.kept key j' hbetween
      rw [hsome] at hsame
      cases hsame
      obtain ⟨e, he, hcreates⟩ := h.new key j hnone hbetween
      exact ⟨e, List.mem_append_left _ he, hcreates⟩
  counted key := by
    rw [h'.counted, h.counted, List.countP_append, Nat.add_assoc]
  acknowledged x hside hx := by
    rcases established_append.mp hx with hx | hx
    . exact h'.contains (h.acknowledged x hside hx)
    . exact h'.acknowledged x hside hx

theorem of_unchanged (hcreates : ∀ e ∈ es, ∀ key, e.creates key = false)
    (hacknowledged : ∀ x, x.side = .destination → Established es x →
      d.objects.contains (Store.inputKey x.input) = true) : Impact es d d where
  kept _ _ h := h
  new key j hnone hsome := by
    rw [hnone] at hsome
    cases hsome
  counted key := by
    have hnone : es.countP (fun e => e.creates key) = 0 := by
      rw [List.countP_eq_zero]
      intro e he
      rw [hcreates e he key]
      apply Bool.false_ne_true
    rw [hnone]
    rfl
  acknowledged := hacknowledged

theorem nil (d : Store) : Impact [] d d := by
  apply of_unchanged
  . intro e he
    cases he
  . rintro x hside ⟨operation, answer, created, hmem, -⟩
    cases hmem

theorem of_elsewhere {e : Event} (d : Store)
    (h : ∀ operation r, e.action ≠ .ask .destination operation r) : Impact [e] d d := by
  apply of_unchanged
  . intro e' he' key
    rw [List.mem_singleton] at he'
    subst he'
    unfold Event.creates
    split
    . exact absurd rfl (h _ _)
    . rfl
  . rintro x hside ⟨operation, answer, created, hmem, -⟩
    rw [List.mem_singleton] at hmem
    subst hmem
    rw [hside] at h
    exact absurd rfl (h _ _)

variable {k : Kind} {input : ObjectInput k}

theorem of_refused (operation : String) {error : ClusterError}
    (h : error.isAlreadyExists = true → d.objects.contains (Store.inputKey input) = true) :
    Impact [⟨.ask .destination operation (.create k input),
      (.error error : Except ClusterError (Object k))⟩] d d := by
  apply of_unchanged
  . intro e he key
    rw [List.mem_singleton] at he
    subst he
    rfl
  . rintro ⟨side, k', input'⟩ hside ⟨operation', answer, created, hmem, hok⟩
    rw [List.mem_singleton] at hmem
    cases hmem
    apply h
    cases hexists : error.isAlreadyExists with
    | true => rfl
    | false =>
      rw [ClusterError.unlessExists, hexists] at hok
      cases hok

theorem of_created (operation : String) (h : d.objects.contains (Store.inputKey input) = false) :
    Impact [⟨.ask .destination operation (.create k input),
      (.ok (Store.created input (d.version + 1)) : Except ClusterError (Object k))⟩] d
        (d.write (Store.inputKey input) (Store.created input (d.version + 1))) where
  kept key j hj := by
    have hne : key ≠ Store.inputKey input := by
      rintro rfl
      rw [OrderedMap.contains_of_get? hj] at h
      cases h
    rw [Store.get?_write_of_ne d _ hne, hj]
  new key j hnone hsome := by
    by_cases hkey : key = Store.inputKey input
    . subst hkey
      rw [Store.get?_write_self] at hsome
      cases hsome
      exact ⟨_, List.mem_cons_self, operation, k, input, _, rfl, rfl, rfl⟩
    . rw [Store.get?_write_of_ne d _ hkey, hnone] at hsome
      cases hsome
  counted key := by
    rw [List.countP_singleton]
    by_cases hkey : Store.inputKey input = key
    . subst hkey
      have hcreates : Event.creates (Store.inputKey input) ⟨.ask .destination operation (.create k input),
          (.ok (Store.created input (d.version + 1)) : Except ClusterError (Object k))⟩ = true :=
        decide_eq_true rfl
      rw [hcreates, h, Store.contains_write_self]
      rfl
    . have hcreates : Event.creates key ⟨.ask .destination operation (.create k input),
          (.ok (Store.created input (d.version + 1)) : Except ClusterError (Object k))⟩ = false :=
        decide_eq_false hkey
      rw [hcreates, Store.contains_write_of_ne d _ (Ne.symm hkey)]
      rfl
  acknowledged := by
    rintro ⟨side, k', input'⟩ hside ⟨operation', answer, created, hmem, -⟩
    rw [List.mem_singleton] at hmem
    cases hmem
    apply Store.contains_write_self

end Impact

theorem Config.permits_mono {c : Config} {content : Except FileError Bytes} {past past' : List Event}
    (h : past ⊆ past') {a : Action} (ha : c.Permits content past a) : c.Permits content past' a := by
  cases a with
  | connect side t => trivial
  | ask side operation r =>
    cases side with
    | source => trivial
    | destination =>
      obtain ⟨descriptor, htranslates, hr | ⟨hr, hestablished⟩⟩ := ha
      . exact ⟨descriptor, translates_mono h htranslates, .inl hr⟩
      . exact ⟨descriptor, translates_mono h htranslates, .inr ⟨hr, established_mono h hestablished⟩⟩

section Answers

variable {w : Clusters} {a : Action} {destination : String}

theorem Clusters.storeOf?_answer (w : Clusters) (a : Action) : (w.answer a).2.storeOf? = w.storeOf? := by
  cases a with
  | connect side t => rw [answer_connect]
  | ask side operation r =>
    cases hname : w.storeAt? side with
    | none => simp only [answer, hname]
    | some name => rw [answer_ask hname, storeOf?_put]

def Action.OnlyCreates (a : Action) : Prop :=
  ∀ operation r, a = .ask .destination operation r → ∃ k input, r = .create k input

theorem onlyCreates_of_permits {c : Config} {content : Except FileError Bytes} {past : List Event}
    (h : c.Permits content past a) : a.OnlyCreates := by
  rintro operation r rfl
  obtain ⟨descriptor, -, rfl | ⟨rfl, -⟩⟩ := h
  . exact ⟨_, _, rfl⟩
  . exact ⟨_, _, rfl⟩

theorem Clusters.impact_answer (hdestination : w.storeAt? .destination = some destination)
    (hsource : w.storeAt? .source ≠ some destination) (ha : a.OnlyCreates) :
    Impact [⟨a, (w.answer a).1⟩] (w.store destination) ((w.answer a).2.store destination) := by
  cases a with
  | connect side t =>
    rw [answer_connect]
    apply Impact.of_elsewhere
    rintro operation r ⟨⟩
  | ask side operation r =>
    cases side with
    | source =>
      have hstore : (w.answer (.ask .source operation r)).2.store destination = w.store destination := by
        cases hname : w.storeAt? .source with
        | none => simp only [answer, hname]
        | some name =>
          rw [answer_ask hname]
          apply store_put_of_ne
          rintro rfl
          exact hsource hname
      rw [hstore]
      apply Impact.of_elsewhere
      rintro operation' r' ⟨⟩
    | destination =>
      obtain ⟨k, input, rfl⟩ := ha operation r rfl
      rw [answer_ask hdestination]
      simp only [store_put_self, Store.answer]
      cases hkey : (w.store destination).objects.contains (Store.inputKey input) with
      | true =>
        rw [Store.create_of_contains hkey]
        exact Impact.of_refused operation (fun _ => hkey)
      | false =>
        rw [Store.create_of_absent hkey]
        exact Impact.of_created operation hkey

theorem Impact.of_failure {e : ClusterError} (he : e.isAlreadyExists = false) (ha : a.OnlyCreates)
    (d : Store) : Impact [⟨a, a.failure e⟩] d d := by
  cases a with
  | connect side t =>
    apply of_elsewhere
    rintro operation r ⟨⟩
  | ask side operation r =>
    cases side with
    | source =>
      apply of_elsewhere
      rintro operation' r' ⟨⟩
    | destination =>
      obtain ⟨k, input, rfl⟩ := ha operation r rfl
      apply of_refused operation
      intro hexists
      rw [he] at hexists
      cases hexists

end Answers

end ClusterRegistration.Registration
