import Mathlib.Data.List.Forall2

namespace ClusterRegistration

theorem exists_of_bind_eq_ok {ε α β : Type} {x : Except ε α} {f : α → Except ε β} {b : β}
    (h : x >>= f = .ok b) : ∃ a, x = .ok a ∧ f a = .ok b := by
  cases x with
  | error e => cases h
  | ok a => exact ⟨a, rfl, h⟩

theorem eq_error_or_exists_of_bind {ε α β : Type} {x : Except ε α} {f : α → Except ε β} {e : ε}
    (h : x >>= f = .error e) : x = .error e ∨ ∃ a, x = .ok a ∧ f a = .error e := by
  cases x with
  | error e' =>
    cases h
    exact .inl rfl
  | ok a => exact .inr ⟨a, rfl, h⟩

theorem exists_of_map_eq_ok {ε α β : Type} {x : Except ε α} {f : α → β} {b : β} (h : f <$> x = .ok b) :
    ∃ a, x = .ok a ∧ f a = b := by
  cases x with
  | error e => cases h
  | ok a => exact ⟨a, rfl, Except.ok.inj h⟩

theorem mapM_eq_ok_iff {ε α β : Type} {f : α → Except ε β} {as : List α} {bs : List β} :
    as.mapM f = .ok bs ↔ List.Forall₂ (fun a b => f a = .ok b) as bs := by
  constructor
  . intro h
    induction as generalizing bs with
    | nil =>
      cases h
      exact .nil
    | cons a as ih =>
      rw [List.mapM_cons] at h
      obtain ⟨b, hb, h⟩ := exists_of_bind_eq_ok h
      obtain ⟨bs', hbs, h⟩ := exists_of_bind_eq_ok h
      cases h
      exact .cons hb (ih hbs)
  . intro h
    induction h with
    | nil => rfl
    | cons hb h ih =>
      rw [List.mapM_cons, hb, ih]
      rfl

theorem exists_mapM_eq_ok_iff {ε α β : Type} {f : α → Except ε β} {as : List α} :
    (∃ bs, as.mapM f = .ok bs) ↔ ∀ a ∈ as, ∃ b, f a = .ok b := by
  simp only [mapM_eq_ok_iff]
  induction as with
  | nil => simp
  | cons a as ih =>
    rw [List.forall_mem_cons, ← ih]
    simp only [List.forall₂_cons_left_iff]
    constructor
    . rintro ⟨_, b, bs, hb, hbs, rfl⟩
      exact ⟨⟨b, hb⟩, bs, hbs⟩
    . rintro ⟨⟨b, hb⟩, bs, hbs⟩
      exact ⟨_, b, bs, hb, hbs, rfl⟩

theorem mapM_eq_mapM_map {ε α β γ : Type} {f : α → Except ε γ} {g : β → Except ε γ} {h : α → β}
    {as : List α} (heq : ∀ a ∈ as, f a = g (h a)) : as.mapM f = (as.map h).mapM g := by
  induction as with
  | nil => rfl
  | cons a as ih =>
    rw [List.forall_mem_cons] at heq
    rw [List.map_cons, List.mapM_cons, List.mapM_cons, heq.1, ih heq.2]

theorem exists_mem_of_forall₂ {α β : Type} {R : α → β → Prop} {as : List α} {bs : List β}
    (h : List.Forall₂ R as bs) {b : β} (hb : b ∈ bs) : ∃ a ∈ as, R a b := by
  induction h with
  | nil => cases hb
  | cons hab h ih =>
    rcases List.mem_cons.mp hb with rfl | hb
    . exact ⟨_, List.mem_cons_self, hab⟩
    . obtain ⟨a, ha, hab⟩ := ih hb
      exact ⟨a, List.mem_cons_of_mem _ ha, hab⟩

inductive Alike {ε ε' α β : Type} (R : α → β → Prop) : Except ε α → Except ε' β → Prop where
  | ok {a : α} {b : β} (h : R a b) : Alike R (.ok a) (.ok b)
  | error (e : ε) (e' : ε') : Alike R (.error e) (.error e')

namespace Alike

variable {ε ε' ε'' α β γ δ : Type} {R : α → β → Prop} {S : γ → δ → Prop} {x : Except ε α}
  {y : Except ε' β}

theorem mono {R' : α → β → Prop} (h : Alike R x y) (hR : ∀ a b, R a b → R' a b) : Alike R' x y := by
  cases h with
  | ok h => exact .ok (hR _ _ h)
  | error e e' => exact .error e e'

theorem bind {f : α → Except ε γ} {g : β → Except ε' δ} (h : Alike R x y)
    (hf : ∀ a b, R a b → Alike S (f a) (g b)) : Alike S (x >>= f) (y >>= g) := by
  cases h with
  | ok h => exact hf _ _ h
  | error e e' => exact .error e e'

theorem map {f : α → γ} {g : β → δ} (h : Alike R x y) (hf : ∀ a b, R a b → S (f a) (g b)) :
    Alike S (f <$> x) (g <$> y) := by
  cases h with
  | ok h => exact .ok (hf _ _ h)
  | error e e' => exact .error e e'

theorem refl {R : α → α → Prop} (hR : ∀ a, R a a) (x : Except ε α) : Alike R x x := by
  cases x with
  | ok a => exact .ok (hR a)
  | error e => exact .error e e

theorem trans {R : α → α → Prop} {x : Except ε α} {y : Except ε' α} {z : Except ε'' α}
    (hR : ∀ a b c, R a b → R b c → R a c) (h : Alike R x y) (h' : Alike R y z) : Alike R x z := by
  cases h with
  | ok h =>
    cases h' with
    | ok h' => exact .ok (hR _ _ _ h h')
  | error e e' =>
    cases h' with
    | error _ e'' => exact .error e e''

theorem exists_of_ok {b : β} (h : Alike R x (.ok b : Except ε' β)) : ∃ a, x = .ok a ∧ R a b := by
  cases h with
  | ok h => exact ⟨_, rfl, h⟩

theorem eq_ok {x : Except ε α} {y : Except ε' α} {a : α} (h : Alike Eq x y) (hy : y = .ok a) :
    x = .ok a := by
  subst hy
  obtain ⟨_, rfl, rfl⟩ := h.exists_of_ok
  rfl

theorem ok_eq {x : Except ε α} {y : Except ε' α} {a : α} (h : Alike Eq x y) (hx : x = .ok a) :
    y = .ok a := by
  subst hx
  cases h with
  | ok h => rw [h]

theorem mapM {R : α → β → Prop} {f : α → Except ε γ} {g : β → Except ε' δ} {as : List α}
    {bs : List β} (h : List.Forall₂ R as bs) (hf : ∀ a b, R a b → Alike S (f a) (g b)) :
    Alike (List.Forall₂ S) (as.mapM f) (bs.mapM g) := by
  induction h with
  | nil => exact .ok .nil
  | cons hab h ih =>
    rw [List.mapM_cons, List.mapM_cons]
    exact (hf _ _ hab).bind (fun c d hcd => ih.bind (fun cs ds hcds => .ok (.cons hcd hcds)))

end Alike

end ClusterRegistration
