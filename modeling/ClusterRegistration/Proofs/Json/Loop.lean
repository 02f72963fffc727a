import ClusterRegistration.Json.Item
import ClusterRegistration.Proofs.Json.Value
import ClusterRegistration.Proofs.Record.Alike

namespace ClusterRegistration.Json.Reader

variable {α β σ : Type} {c c' : Cursor} {j : Json} {n : Nat}

abbrev Yields (c' : Cursor) (x : Except Error (α × Cursor)) (y : Item.Reader α) : Prop :=
  Alike (fun p a => p = (a, c')) x y

namespace Yields

variable {x : Reader α} {y : Item.Reader α}

theorem of_ok {a : α} {x : Except Error (α × Cursor)} (h : x = .ok (a, c')) :
    Yields c' x (.ok a) := by
  rw [h]
  exact .ok rfl

theorem of_error {x : Except Error (α × Cursor)} {e : Error} (h : x = .error e) (m : Record.Mismatch) :
    Yields c' x (.error m) := by
  rw [h]
  exact .error _ _

theorem bind {f : α → Reader β} {g : α → Item.Reader β} {c₁ : Cursor} (h : Yields c₁ (x c) y)
    (hf : ∀ a, Yields c' (f a c₁) (g a)) : Yields c' ((x >>= f) c) (y >>= g) := by
  generalize hx : x c = r at h
  cases h with
  | ok h =>
    subst h
    rw [bind_of_ok hx]
    exact hf _
  | error e e' =>
    rw [bind_of_error hx]
    exact .error _ _

theorem exists_error {f : α → Reader β} {c₁ : Cursor} (h : Yields c₁ (x c) y)
    (hf : ∀ a, ∃ e, f a c₁ = .error e) : ∃ e, (x >>= f) c = .error e := by
  generalize hx : x c = r at h
  cases h with
  | @ok p a h =>
    subst h
    obtain ⟨e, he⟩ := hf a
    exact ⟨e, (bind_of_ok hx).trans he⟩
  | error e e' => exact ⟨e, bind_of_error hx⟩

theorem nested {c₁ : Cursor} (hdepth : ¬ c.depth ≤ 1) (h : Yields c₁ (x c.enter) y) :
    Yields (c₁.leave c.depth) (Reader.nested x c) y := by
  generalize hx : x c.enter = r at h
  cases h with
  | ok h =>
    subst h
    rw [nested_of_ok hdepth hx]
    exact .ok rfl
  | error e e' =>
    rw [nested_of_error hdepth hx]
    exact .error _ _

theorem map (f : α → β) (h : Yields c' (x c) y) : Yields c' ((f <$> x) c) (f <$> y) := by
  rw [map_eq_pure_bind, map_eq_pure_bind]
  exact h.bind (fun a => .ok rfl)

end Yields

/--
Every value that is read by `valueWith n` is read alike from the text and from the value.
-/
def Follows (n bound : Nat) (read : Reader α) (read' : Json → Item.Reader α) : Prop :=
  ∀ c j c', c.rest.length < bound → valueWith n c = .ok (j, c') → Yields c' (read c) (read' j)

theorem items_follow {bound : Nat} {step : σ → Reader σ} {step' : σ → Json → Item.Reader σ}
    (hstep : ∀ s, Follows n bound (step s) (step' s)) (fuel : Nat) (first : Bool) (s : σ)
    {js₀ js₁ : List Json} (hc : c.rest.length < bound)
    (h : items (anotherItem n) fuel first js₀ c = .ok (js₁, c')) :
    ∃ js : List Json, js₁ = js.reverse ++ js₀ ∧
      Yields c' (items step fuel first s c) (js.foldlM step' s) := by
  induction fuel generalizing first s js₀ c with
  | zero => cases h
  | succ fuel ih =>
    obtain ⟨_, more, c₁, ⟨⟩, hmore, h⟩ := items_eq_ok h
    unfold items
    rw [bind_of_ok hmore]
    rcases h with ⟨rfl, rfl, rfl⟩ | ⟨rfl, j, c₂, hvalue, h⟩
    . exact ⟨[], rfl, .ok rfl⟩
    . have hc₁ := Nat.lt_of_le_of_lt (Advances.moreItems first _ _ _ hmore).length hc
      have hc₂ := Nat.lt_of_le_of_lt (Advances.valueWith n _ _ _ hvalue).length hc₁
      obtain ⟨js, hjs, -⟩ := ih false s hc₂ h
      refine ⟨j :: js, by rw [hjs, List.reverse_cons, List.append_assoc, List.singleton_append], ?_⟩
      rw [List.foldlM_cons]
      refine (hstep s c₁ j c₂ hc₁ hvalue).bind (fun s₁ => ?_)
      obtain ⟨js', hjs', hyields⟩ := ih false s₁ hc₂ h
      rw [hjs, List.append_cancel_right_eq, List.reverse_inj] at hjs'
      exact hjs' ▸ hyields

theorem members_follow {bound : Nat} {step : σ → String → Reader σ}
    {step' : σ → String → Json → Item.Reader σ}
    (hstep : ∀ s key, Follows n bound (step s key) (step' s key)) (fuel : Nat) (first : Bool) (s : σ)
    {ms₀ ms₁ : List (String × Json)} (hc : c.rest.length < bound)
    (h : members (anotherMember n) fuel first ms₀ c = .ok (ms₁, c')) :
    ∃ ms : List (String × Json), ms₁ = ms.reverse ++ ms₀ ∧
      Yields c' (members step fuel first s c) (ms.foldlM (fun s m => step' s m.1 m.2) s) := by
  induction fuel generalizing first s ms₀ c with
  | zero => cases h
  | succ fuel ih =>
    obtain ⟨_, more, c₁, ⟨⟩, hmore, h⟩ := members_eq_ok h
    unfold members
    rw [bind_of_ok hmore]
    rcases h with ⟨rfl, rfl, rfl⟩ | ⟨rfl, key, c₂, c₃, j, c₄, hkey, hcolon, hvalue, h⟩
    . exact ⟨[], rfl, .ok rfl⟩
    . have hc₁ := Nat.lt_of_le_of_lt (Advances.moreMembers first _ _ _ hmore).length hc
      have hnext := Nat.lt_of_le_of_lt (Advances.advance _ _ _ (advance_eq c₁)).length hc₁
      have hc₂ := Nat.lt_of_le_of_lt (Advances.text _ _ _ hkey).length hnext
      have hc₃ := Nat.lt_of_le_of_lt (Advances.colon _ _ _ hcolon).length hc₂
      have hc₄ := Nat.lt_of_le_of_lt (Advances.valueWith n _ _ _ hvalue).length hc₃
      obtain ⟨ms, hms, -⟩ := ih false s hc₄ h
      refine ⟨(key, j) :: ms,
        by rw [hms, List.reverse_cons, List.append_assoc, List.singleton_append], ?_⟩
      rw [List.foldlM_cons]
      show Yields c' ((advance >>= _) c₁) _
      rw [bind_of_ok (advance_eq _), bind_of_ok hkey, bind_of_ok hcolon]
      refine (hstep s key c₃ j c₄ hc₃ hvalue).bind (fun s₁ => ?_)
      obtain ⟨ms', hms', hyields⟩ := ih false s₁ hc₄ h
      rw [hms, List.append_cancel_right_eq, List.reverse_inj] at hms'
      exact hms' ▸ hyields

theorem listWith_follow {b : UInt8} {f : σ → Reader σ} {g : σ → Json → Item.Reader σ}
    {js : List Json} {c₁ : Cursor} (hfirst : peek? c = .ok (some b, c₁))
    (hstep : ∀ s, Follows n c₁.rest.length (f s) (g s)) (s : σ)
    (h : listWith (anotherItem n) [] c₁ = .ok (js.reverse, c')) :
    Yields c' (listWith f s c₁) (js.foldlM g s) := by
  obtain ⟨hdepth, _, c₂, rfl, hitems, rfl⟩ := listWith_eq_ok h
  have hlength := length_next_of_first hfirst
  obtain ⟨js', hjs, hyields⟩ := items_follow (c := c₁.enter.next) hstep _ true s hlength hitems
  rw [List.append_nil, List.reverse_inj] at hjs
  subst hjs
  rw [← bind_pure (js.foldlM g s)]
  refine Yields.bind (.nested hdepth ?_) (fun s => .ok rfl)
  rw [bind_of_ok (advance_eq _), bind_of_ok (fuel_eq _)]
  exact hyields

theorem objectWith_follow {b : UInt8} {f : σ → String → Reader σ}
    {g : σ → String → Json → Item.Reader σ} {ms : List (String × Json)} {c₁ : Cursor}
    (hfirst : peek? c = .ok (some b, c₁))
    (hstep : ∀ s key, Follows n c₁.rest.length (f s key) (g s key)) (s : σ)
    (h : objectWith (anotherMember n) [] c₁ = .ok (ms.reverse, c')) :
    Yields c' (objectWith f s c₁) (ms.foldlM (fun s m => g s m.1 m.2) s) := by
  obtain ⟨hdepth, _, c₂, rfl, hmembers, rfl⟩ := objectWith_eq_ok h
  have hlength := length_next_of_first hfirst
  obtain ⟨ms', hms, hyields⟩ := members_follow (c := c₁.enter.next) hstep _ true s hlength hmembers
  rw [List.append_nil, List.reverse_inj] at hms
  subst hms
  rw [← bind_pure (ms.foldlM _ s)]
  refine Yields.bind (.nested hdepth ?_) (fun s => .ok rfl)
  rw [bind_of_ok (advance_eq _), bind_of_ok (fuel_eq _)]
  exact hyields

theorem foldlM_cons (js js₀ : List Json) :
    js.foldlM (fun js j => (.ok (j :: js) : Item.Reader _)) js₀ = .ok (js.reverse ++ js₀) := by
  induction js generalizing js₀ with
  | nil => rfl
  | cons j js ih =>
    rw [List.foldlM_cons, List.reverse_cons, List.append_assoc]
    exact ih (j :: js₀)

theorem foldlM_cons_member (ms ms₀ : List (String × Json)) :
    ms.foldlM (fun ms m => (.ok ((m.1, m.2) :: ms) : Item.Reader _)) ms₀ =
      .ok (ms.reverse ++ ms₀) := by
  induction ms generalizing ms₀ with
  | nil => rfl
  | cons m ms ih =>
    rw [List.foldlM_cons, List.reverse_cons, List.append_assoc]
    exact ih (m :: ms₀)

theorem valueWith_of_lt {m : Nat} (h : valueWith n c = .ok (j, c')) (hm : c.rest.length < m) :
    valueWith m c = .ok (j, c') := by
  -- On the fuel. The parts of a value leave less of the text, so that `m` is enough for them, too.
  induction n generalizing c j c' m with
  | zero => cases h
  | succ n ih =>
    obtain ⟨m, rfl⟩ : ∃ m', m = m' + 1 := ⟨m - 1, by omega⟩
    rw [valueWith_succ] at h ⊢
    obtain ⟨o, c₁, hfirst, h⟩ := bind_eq_ok h
    have hc₁ := (Advances.peek? _ _ _ hfirst).length
    rw [bind_of_ok hfirst]
    cases o with
    | none => cases h
    | some b =>
      dsimp only at h ⊢
      split at h
      . next hb =>
        obtain ⟨js, c₂, hlist, h⟩ := bind_eq_ok h
        have hitems : ∀ js, Follows n c₁.rest.length (anotherItem m js) (fun j => .ok (j :: js)) :=
          fun js c j c' hc hvalue => .of_ok (anotherItem_of_ok (ih hvalue (by omega)))
        have hagain := listWith_follow hfirst hitems [] (List.reverse_reverse js ▸ hlist)
        rw [foldlM_cons, List.reverse_reverse, List.append_nil] at hagain
        obtain ⟨p, hlist, rfl⟩ := hagain.exists_of_ok
        rw [if_pos hb, bind_of_ok hlist]
        exact h
      . next hlist =>
        rw [if_neg hlist]
        split at h
        . next hb =>
          obtain ⟨ms, c₂, hobject, h⟩ := bind_eq_ok h
          have hmembers : ∀ ms key, Follows n c₁.rest.length (anotherMember m ms key)
              (fun j => .ok ((key, j) :: ms)) :=
            fun ms key c j c' hc hvalue => .of_ok (anotherMember_of_ok (ih hvalue (by omega)))
          have hagain := objectWith_follow hfirst hmembers [] (List.reverse_reverse ms ▸ hobject)
          rw [foldlM_cons_member, List.reverse_reverse, List.append_nil] at hagain
          obtain ⟨p, hobject, rfl⟩ := hagain.exists_of_ok
          rw [if_pos hb, bind_of_ok hobject]
          exact h
        . next hobject =>
          rw [if_neg hobject]
          exact h

theorem value_of_valueWith (h : valueWith n c = .ok (j, c')) : value c = .ok (j, c') := by
  unfold value
  rw [bind_of_ok (fuel_eq c)]
  exact valueWith_of_lt h (Nat.lt_succ_self _)

section Whole

variable {body : List UInt8}

def finished (a : α) : Reader α := do
  match ← peek? with
  | none => pure a
  | some _ => fail .trailingCharacters

theorem run_eq (read : Reader α) (bs : List UInt8) :
    run read bs = ((read >>= finished) ⟨bs, maxDepth⟩ >>= fun p => pure p.1) :=
  rfl

theorem finished_eq_ok {a a' : α} {c' : Cursor} (h : finished a c = .ok (a', c')) :
    a' = a ∧ peek? c = .ok (none, c') := by
  unfold finished at h
  obtain ⟨o, c₁, hpeek, h⟩ := bind_eq_ok h
  cases o with
  | some b => cases h
  | none =>
    cases h
    exact ⟨rfl, hpeek⟩

theorem finished_of_end {c' : Cursor} (a : α) (h : peek? c = .ok (none, c')) :
    finished a c = .ok (a, c') := by
  unfold finished
  rw [bind_of_ok h]
  rfl

theorem parse_eq_ok {j : Json} (h : parse body = .ok j) :
    ∃ n c c', valueWith n ⟨body, maxDepth⟩ = .ok (j, c) ∧ peek? c = .ok (none, c') := by
  unfold parse at h
  rw [run_eq] at h
  cases hread : (value >>= finished) ⟨body, maxDepth⟩ with
  | error e =>
    rw [hread] at h
    cases h
  | ok p =>
    rw [hread] at h
    cases h
    obtain ⟨j, c, hvalue, hend⟩ := bind_eq_ok hread
    obtain ⟨rfl, hpeek⟩ := finished_eq_ok hend
    exact ⟨_, c, p.2, hvalue, hpeek⟩

theorem parse_of_valueWith {n : Nat} {j : Json} {c c' : Cursor}
    (h : valueWith n ⟨body, maxDepth⟩ = .ok (j, c)) (hend : peek? c = .ok (none, c')) :
    parse body = .ok j := by
  unfold parse
  rw [run_eq, bind_of_ok (value_of_valueWith h), finished_of_end j hend]
  rfl

end Whole

end ClusterRegistration.Json.Reader
