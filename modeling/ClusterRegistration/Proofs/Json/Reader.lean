import Mathlib.Data.List.DropRight
import ClusterRegistration.Json.Document

namespace ClusterRegistration.Json

def Cursor.skipBlanks (c : Cursor) : Cursor :=
  { c with rest := c.rest.dropWhile Reader.isBlank }

def Cursor.next (c : Cursor) : Cursor :=
  { c with rest := c.rest.tail }

def Cursor.enter (c : Cursor) : Cursor :=
  { c with depth := c.depth - 1 }

def Cursor.leave (c : Cursor) (depth : Nat) : Cursor :=
  { c with depth := depth }

namespace Reader

variable {α β : Type} {x : Reader α} {f : α → Reader β} {c c' : Cursor} {a : α} {b : β}

theorem bind_of_ok (h : x c = .ok (a, c')) : (x >>= f) c = f a c' := by
  show StateT.bind x f c = f a c'
  unfold StateT.bind
  rw [h]
  rfl

theorem bind_of_error {e : Error} (h : x c = .error e) : (x >>= f) c = .error e := by
  show StateT.bind x f c = .error e
  unfold StateT.bind
  rw [h]
  rfl

theorem bind_eq_ok (h : (x >>= f) c = .ok (b, c')) :
    ∃ a c₁, x c = .ok (a, c₁) ∧ f a c₁ = .ok (b, c') := by
  cases hx : x c with
  | error e =>
    rw [bind_of_error hx] at h
    cases h
  | ok p =>
    rw [bind_of_ok hx] at h
    exact ⟨p.1, p.2, rfl, h⟩

theorem peek?_eq (c : Cursor) : peek? c = .ok (c.skipBlanks.rest.head?, c.skipBlanks) :=
  rfl

theorem advance_eq (c : Cursor) : advance c = .ok ((), c.next) :=
  rfl

theorem fuel_eq (c : Cursor) : fuel c = .ok (c.rest.length + 1, c) :=
  rfl

theorem skipBlanks_skipBlanks (c : Cursor) : c.skipBlanks.skipBlanks = c.skipBlanks := by
  unfold Cursor.skipBlanks
  rw [List.dropWhile_idempotent]

theorem peek?_of_first {o : Option UInt8} (h : peek? c = .ok (o, c')) : peek? c' = .ok (o, c') := by
  rw [peek?_eq] at h
  obtain ⟨rfl, rfl⟩ := Prod.mk.inj (Except.ok.inj h)
  rw [peek?_eq, skipBlanks_skipBlanks]

theorem start_of_first {b : UInt8} (h : peek? c = .ok (some b, c')) : start c = .ok (b, c') := by
  unfold start
  rw [bind_of_ok h]
  rfl

theorem length_next_of_first {b : UInt8} (h : peek? c = .ok (some b, c')) :
    c'.next.rest.length < c'.rest.length := by
  rw [peek?_eq] at h
  obtain ⟨hhead, rfl⟩ := Prod.mk.inj (Except.ok.inj h)
  unfold Cursor.next
  cases hrest : c.skipBlanks.rest with
  | nil =>
    rw [hrest] at hhead
    cases hhead
  | cons b' rest => exact Nat.lt_succ_self _

theorem nested_of_ok (hdepth : ¬ c.depth ≤ 1) (h : x c.enter = .ok (a, c')) :
    nested x c = .ok (a, c'.leave c.depth) := by
  unfold Cursor.enter at h
  unfold nested
  rw [if_neg hdepth, h]
  rfl

theorem nested_of_error {e : Error} (hdepth : ¬ c.depth ≤ 1) (h : x c.enter = .error e) :
    nested x c = .error e := by
  unfold Cursor.enter at h
  unfold nested
  rw [if_neg hdepth, h]

theorem nested_bind (hdepth : ¬ c.depth ≤ 1) :
    (nested x >>= f) c = (x >>= fun a c' => f a (c'.leave c.depth)) c.enter := by
  cases hx : x c.enter with
  | error e => rw [bind_of_error (nested_of_error hdepth hx), bind_of_error hx]
  | ok p => rw [bind_of_ok (nested_of_ok hdepth hx), bind_of_ok hx]

theorem nested_eq_ok (h : nested x c = .ok (a, c')) :
    ¬ c.depth ≤ 1 ∧ ∃ c₁, x c.enter = .ok (a, c₁) ∧ c' = c₁.leave c.depth := by
  by_cases hdepth : c.depth ≤ 1
  . unfold nested at h
    rw [if_pos hdepth] at h
    cases h
  . refine ⟨hdepth, ?_⟩
    cases hx : x c.enter with
    | error e =>
      rw [nested_of_error hdepth hx] at h
      cases h
    | ok p =>
      rw [nested_of_ok hdepth hx] at h
      cases h
      exact ⟨p.2, rfl, rfl⟩

structure Advanced (c c' : Cursor) : Prop where
  length : c'.rest.length ≤ c.rest.length
  depth : c'.depth = c.depth

theorem Advanced.refl (c : Cursor) : Advanced c c :=
  ⟨Nat.le_refl _, rfl⟩

theorem Advanced.trans {c'' : Cursor} (h : Advanced c c') (h' : Advanced c' c'') : Advanced c c'' :=
  ⟨Nat.le_trans h'.length h.length, h'.depth.trans h.depth⟩

def Advances (r : Reader α) : Prop :=
  ∀ c a c', r c = .ok (a, c') → Advanced c c'

namespace Advances

theorem bind (hx : Advances x) (hf : ∀ a, Advances (f a)) : Advances (x >>= f) := by
  intro c b c' h
  obtain ⟨a, c₁, hfirst, hsecond⟩ := bind_eq_ok h
  exact (hx _ _ _ hfirst).trans (hf a _ _ _ hsecond)

theorem pure (a : α) : Advances (Pure.pure a : Reader α) := by
  intro c b c' h
  cases h
  exact .refl c

theorem fail (m : Malformation) : Advances (Reader.fail m : Reader α) := by
  intro c b c' h
  cases h

theorem peek? : Advances Reader.peek? := by
  intro c b c' h
  cases h
  exact ⟨(List.dropWhile_suffix isBlank).length_le, rfl⟩

theorem advance : Advances Reader.advance := by
  intro c b c' h
  cases h
  exact ⟨c.rest.tail_suffix.length_le, rfl⟩

theorem lexeme {scan : List UInt8 → Except Malformation (α × List UInt8)}
    (h : ∀ bs a rest, scan bs = .ok (a, rest) → rest.length ≤ bs.length) :
    Advances (Reader.lexeme scan) := by
  intro c a c' hread
  unfold Reader.lexeme at hread
  split at hread
  . next hscan =>
    cases hread
    exact ⟨h _ _ _ hscan, rfl⟩
  . cases hread

theorem nested (hx : Advances x) : Advances (Reader.nested x) := by
  intro c a c' h
  obtain ⟨-, c₁, hread, rfl⟩ := nested_eq_ok h
  exact ⟨(hx c.enter a c₁ hread).length, rfl⟩

end Advances

end Reader

end ClusterRegistration.Json
