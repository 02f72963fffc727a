import ClusterRegistration.Proofs.Yaml.Character
import ClusterRegistration.Yaml.Token.Cursor

namespace ClusterRegistration.Yaml

namespace Cursor

def pass : List Char → Cursor → Cursor
  | [], c => c
  | a :: as, c => pass as (if isBreak a then c.skipBreak else c.skip)

@[simp]
theorem pass_nil (c : Cursor) : pass [] c = c :=
  rfl

theorem pass_append (as bs : List Char) (c : Cursor) : pass (as ++ bs) c = pass bs (pass as c) := by
  induction as generalizing c with
  | nil => rfl
  | cons a as ih =>
    rw [List.cons_append, pass, ih]
    rfl

theorem pass_cons (a : Char) (as : List Char) (c : Cursor) :
    pass (a :: as) c = pass as (pass [a] c) :=
  rfl

theorem pass_of_not_isBreak {a : Char} (h : isBreak a = false) (c : Cursor) :
    pass [a] c = c.skip := by
  simp [pass, h]

theorem pass_of_isBreak {a : Char} (h : isBreak a = true) (c : Cursor) :
    pass [a] c = c.skipBreak := by
  simp [pass, h]

theorem skipN_length {as : List Char} (h : ∀ a ∈ as, isBreak a = false) (c : Cursor) :
    c.skipN as.length = pass as c := by
  induction as generalizing c with
  | nil => rfl
  | cons a as ih =>
    rw [pass_cons, pass_of_not_isBreak (h a List.mem_cons_self), List.length_cons, skipN]
    apply ih
    intro b hb
    exact h b (List.mem_cons_of_mem a hb)

section Rest

variable {a : Char} {as bs : List Char} {c : Cursor}

theorem atEnd_of_rest (h : c.rest ≠ []) : c.atEnd = false := by
  unfold atEnd
  rw [List.isEmpty_eq_false_iff]
  exact h

theorem rest_skip (h : c.rest = a :: as) : c.skip.rest = as := by
  unfold skip
  rw [h]

theorem skipBreak_of_isBreak (h : c.rest = a :: as) (hbreak : isBreak a = true) (hreturn : a ≠ '\r') :
    c.skipBreak = ⟨as, ⟨c.mark.offset + width a, c.mark.line + 1, 0⟩⟩ := by
  unfold skipBreak
  split
  . next h' =>
    rw [h] at h'
    cases h'
    exact absurd rfl hreturn
  . next h' =>
    rw [h] at h'
    cases h'
    rw [if_pos hbreak]
  . next h' =>
    rw [h] at h'
    cases h'

theorem rest_pass (h : c.rest = as ++ bs) (hreturn : '\r' ∉ as) : (pass as c).rest = bs := by
  induction as generalizing c with
  | nil => exact h
  | cons a as ih =>
    rw [List.mem_cons, not_or] at hreturn
    rw [pass_cons]
    apply ih _ hreturn.2
    cases hbreak : isBreak a with
    | true =>
      rw [pass_of_isBreak hbreak, skipBreak_of_isBreak h hbreak (fun h => hreturn.1 h.symm)]
      rfl
    | false =>
      rw [pass_of_not_isBreak hbreak]
      exact rest_skip h

theorem mark_skip (h : c.rest = a :: as) :
    c.skip.mark = ⟨c.mark.offset + width a, c.mark.line, c.mark.column + 1⟩ := by
  unfold skip
  rw [h]

theorem column_pass (h : c.rest = as ++ bs) (hbreak : ∀ a ∈ as, isBreak a = false) :
    (pass as c).mark.column = c.mark.column + as.length := by
  induction as generalizing c with
  | nil => rfl
  | cons a as ih =>
    have hbreak' := hbreak a List.mem_cons_self
    rw [pass_cons, pass_of_not_isBreak hbreak', ih (rest_skip h), mark_skip h, List.length_cons]
    . simp only
      omega
    . intro b hb
      exact hbreak b (List.mem_cons_of_mem a hb)

theorem line_pass (h : c.rest = as ++ bs) (hbreak : ∀ a ∈ as, isBreak a = false) :
    (pass as c).mark.line = c.mark.line := by
  induction as generalizing c with
  | nil => rfl
  | cons a as ih =>
    have hbreak' := hbreak a List.mem_cons_self
    rw [pass_cons, pass_of_not_isBreak hbreak', ih (rest_skip h), mark_skip h]
    intro b hb
    exact hbreak b (List.mem_cons_of_mem a hb)

theorem offset_pass (h : c.rest = as ++ bs) (hbreak : ∀ a ∈ as, isBreak a = false)
    (hwidth : ∀ a ∈ as, width a = 1) : (pass as c).mark.offset = c.mark.offset + as.length := by
  induction as generalizing c with
  | nil => rfl
  | cons a as ih =>
    rw [pass_cons, pass_of_not_isBreak (hbreak a List.mem_cons_self), ih (rest_skip h), mark_skip h,
      hwidth a List.mem_cons_self, List.length_cons]
    . simp only
      omega
    . intro b hb
      exact hbreak b (List.mem_cons_of_mem a hb)
    . intro b hb
      exact hwidth b (List.mem_cons_of_mem a hb)

theorem line_le_pass (as : List Char) (c : Cursor) : c.mark.line ≤ (pass as c).mark.line := by
  induction as generalizing c with
  | nil => exact Nat.le_refl _
  | cons a as ih =>
    rw [pass_cons]
    apply Nat.le_trans _ (ih _)
    cases hbreak : isBreak a with
    | true =>
      rw [pass_of_isBreak hbreak]
      unfold skipBreak
      split
      . simp
      . split <;> simp
      . simp
    | false =>
      rw [pass_of_not_isBreak hbreak]
      unfold skip
      split <;> simp

section Break

variable {b : Char} {ds : List Char} (h : c.rest = as ++ b :: (bs ++ ds)) (hb : isBreak b = true)
  (hreturn : '\r' ∉ as ++ [b])

include h hb hreturn

theorem skipBreak_pass : (pass as c).skipBreak =
    ⟨bs ++ ds, ⟨(pass as c).mark.offset + width b, (pass as c).mark.line + 1, 0⟩⟩ := by
  rw [List.mem_append, not_or, List.mem_singleton] at hreturn
  exact skipBreak_of_isBreak (rest_pass h hreturn.1) hb (fun h => hreturn.2 h.symm)

theorem rest_pass_break (hbs : ∀ a ∈ bs, isBreak a = false) : (pass (as ++ b :: bs) c).rest = ds := by
  rw [pass_append, pass_cons, pass_of_isBreak hb]
  apply rest_pass (by rw [skipBreak_pass h hb hreturn])
  intro hmem
  have := hbs _ hmem
  contradiction

theorem column_pass_break (hbs : ∀ a ∈ bs, isBreak a = false) :
    (pass (as ++ b :: bs) c).mark.column = bs.length := by
  rw [pass_append, pass_cons, pass_of_isBreak hb]
  have hskip := skipBreak_pass h hb hreturn
  rw [@column_pass bs ds _ (by rw [hskip]) hbs, hskip]
  apply Nat.zero_add

theorem line_lt_pass_break : c.mark.line < (pass (as ++ b :: bs) c).mark.line := by
  rw [pass_append, pass_cons, pass_of_isBreak hb]
  have hle := line_le_pass as c
  have hle' := line_le_pass bs (pass as c).skipBreak
  rw [skipBreak_pass h hb hreturn] at hle' ⊢
  simp only at hle'
  omega

end Break

theorem column_pass_breaks {ds : List Char} (h : c.rest = as ++ (bs ++ ds)) (hne : as ≠ [])
    (has : ∀ a ∈ as, isBreak a = true) (hreturn : '\r' ∉ as) (hbs : ∀ a ∈ bs, isBreak a = false) :
    (pass bs (pass as c)).mark.column = bs.length := by
  obtain ⟨as', b, rfl⟩ : ∃ as' b, as = as' ++ [b] :=
    ⟨as.dropLast, as.getLast hne, (List.dropLast_concat_getLast hne).symm⟩
  rw [List.append_assoc] at h
  rw [← pass_append, List.append_assoc, List.singleton_append]
  have hb : isBreak b = true := by
    apply has
    simp
  exact column_pass_break (show c.rest = as' ++ b :: (bs ++ ds) from h) hb hreturn hbs

theorem takeWhile_append {p : Char → Bool} (h : ∀ a ∈ as, p a = true)
    (hbs : (bs.head?.map p).getD false = false) : (as ++ bs).takeWhile p = as := by
  rw [List.takeWhile_append_of_pos h]
  cases bs with
  | nil => simp
  | cons b bs =>
    have hb : p b = false := hbs
    simp [hb]

theorem skipWhile_of_rest {p : Char → Bool} (hrest : c.rest = as ++ bs) (h : ∀ a ∈ as, p a = true)
    (hbs : (bs.head?.map p).getD false = false) (hbreak : ∀ a ∈ as, isBreak a = false) :
    c.skipWhile p = pass as c := by
  unfold skipWhile
  rw [hrest, takeWhile_append h hbs]
  exact skipN_length hbreak c

theorem is_of_rest (p : Char → Bool) (h : c.rest = a :: as) : c.is p = p a := by
  unfold is
  rw [h]

theorem is_of_nil (p : Char → Bool) (h : c.rest = []) : c.is p = false := by
  unfold is
  rw [h]

theorem takeBreak_of_isBreak (h : c.rest = a :: as) (hbreak : isBreak a = true) :
    c.takeBreak = ([breakChar a], pass [a] c) := by
  unfold takeBreak
  rw [h, pass_of_isBreak hbreak]
  exact if_pos hbreak

end Rest

theorem breakChar_of_isKept {a : Char} (h : isKept a = true) : breakChar a = a := by
  simp only [isKept, Bool.or_eq_true, beq_iff_eq] at h
  rcases h with (rfl | rfl) | rfl <;> decide

theorem column_pass_kept {b : Char} {as : List Char} {c : Cursor} (hrest : c.rest = b :: as) (hb : isKept b = true) :
    (pass [b] c).mark.column = 0 := by
  have hreturn : b ≠ '\r' := by
    rintro rfl
    contradiction
  rw [pass_of_isBreak (isBreak_of_isKept hb), skipBreak_of_isBreak hrest (isBreak_of_isKept hb) hreturn]

theorem skipN_blanks (n : Nat) (c : Cursor) : c.skipN n = pass (Text.blanks n) c := by
  have h := skipN_length (@isBreak_of_mem_blanks n) c
  rwa [length_blanks] at h

end Cursor

end ClusterRegistration.Yaml
