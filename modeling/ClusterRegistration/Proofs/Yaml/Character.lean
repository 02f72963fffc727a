import ClusterRegistration.Yaml.Printer

namespace ClusterRegistration.Yaml

def Solid (cs : List Char) : Prop :=
  (cs.head?.map isBlankOrBreak).getD false = false

theorem solid_append_cons {as : List Char} {a : Char} (h : Solid (as ++ [a])) (bs : List Char) :
    Solid (as ++ a :: bs) := by
  cases as with
  | nil => exact h
  | cons b as => exact h

theorem endsWord_append {as : List Char} (h : endsWord as = false) (bs : List Char) :
    endsWord (as ++ bs) = false := by
  cases as with
  | nil => cases h
  | cons a as => exact h

theorem isBlank_of_isBreak {b : Char} (h : isBreak b = true) : isBlank b = false := by
  simp only [isBreak, Bool.or_eq_true, beq_iff_eq] at h
  rcases h with (((rfl | rfl) | rfl) | rfl) | rfl <;> decide

theorem isBreak_of_not_isBlankOrBreak {a : Char} (h : isBlankOrBreak a = false) : isBreak a = false := by
  rw [isBlankOrBreak, Bool.or_eq_false_iff] at h
  exact h.2

theorem return_not_mem {as : List Char} (h : ∀ a ∈ as, isBreak a = false) : '\r' ∉ as := by
  intro hmem
  exact absurd (h _ hmem) (by decide)

theorem eq_of_isPrintable {a : Char} (h : isPrintable a = true) (hblank : isBlankOrBreak a = true) :
    a = ' ' ∨ a = '\n' ∨ a = '\u2028' ∨ a = '\u2029' := by
  simp only [isBlankOrBreak, isBlank, isBreak, Bool.or_eq_true, beq_iff_eq] at hblank
  rcases hblank with (rfl | rfl) | (((rfl | rfl) | rfl) | rfl) | rfl
  . simp
  . exact absurd h (by decide)
  . exact absurd h (by decide)
  . simp
  . exact absurd h (by decide)
  . simp
  . simp

def isKept (a : Char) : Bool :=
  a == '\n' || a == '\u2028' || a == '\u2029'

theorem isBreak_of_isKept {a : Char} (h : isKept a = true) : isBreak a = true := by
  simp only [isKept, Bool.or_eq_true, beq_iff_eq] at h
  rcases h with (rfl | rfl) | rfl <;> decide

theorem not_return_mem_kept {bs : List Char} (h : ∀ b ∈ bs, isKept b = true) : '\r' ∉ bs := by
  intro hmem
  exact absurd (h _ hmem) (by decide)

theorem isKept_of_isPrintable {a : Char} (h : isPrintable a = true) (hbreak : isBreak a = true) :
    isKept a = true := by
  have hblank : isBlankOrBreak a = true := by
    rw [isBlankOrBreak, hbreak, Bool.or_true]
  rcases eq_of_isPrintable h hblank with rfl | rfl | rfl | rfl
  . exact absurd hbreak (by decide)
  all_goals decide

theorem isBreak_of_mem_blanks {n : Nat} : ∀ a ∈ Text.blanks n, isBreak a = false := by
  intro a ha
  rw [Text.blanks, List.mem_replicate] at ha
  rw [ha.2]
  decide

theorem eq_of_mem_blanks {n : Nat} : ∀ a ∈ Text.blanks n, a = ' ' :=
  fun _ ha => List.eq_of_mem_replicate ha

theorem return_not_mem_blanks (n : Nat) : '\r' ∉ Text.blanks n :=
  return_not_mem isBreak_of_mem_blanks

theorem length_blanks (n : Nat) : (Text.blanks n).length = n :=
  List.length_replicate

theorem blanks_succ_append (n : Nat) (cs : List Char) :
    Text.blanks (n + 1) ++ cs = ' ' :: (Text.blanks n ++ cs) :=
  rfl

namespace Text

variable {p : Char → Char → Bool} {as bs : List Char} {a b : Char}

theorem hasNeighbours_append (h : hasNeighbours p (as ++ bs) = false) :
    hasNeighbours p bs = false := by
  induction as with
  | nil => exact h
  | cons a as ih =>
    apply ih
    cases hcs : as ++ bs with
    | nil => rfl
    | cons c cs =>
      rw [List.cons_append, hcs, hasNeighbours, Bool.or_eq_false_iff] at h
      exact h.2

theorem of_hasNeighbours_append (h : hasNeighbours p (as ++ a :: b :: bs) = false) :
    p a b = false := by
  have h := hasNeighbours_append h
  rw [hasNeighbours, Bool.or_eq_false_iff] at h
  exact h.1

theorem exists_word (cs : List Char) :
    ∃ word n rest, cs = word ++ (blanks n ++ rest) ∧ (∀ a ∈ word, a ≠ ' ') ∧
      rest.head? ≠ some ' ' ∧ (n = 0 → rest = []) := by
  induction cs with
  | nil => exact ⟨[], 0, [], rfl, by simp, by simp, fun _ => rfl⟩
  | cons a cs ih =>
    obtain ⟨word, n, rest, hcs, hword, hrest, hn⟩ := ih
    by_cases ha : a = ' '
    . subst ha
      cases word with
      | nil =>
        refine ⟨[], n + 1, rest, ?_, by simp, hrest, by simp⟩
        rw [hcs]
        rfl
      | cons b word =>
        refine ⟨[], 1, b :: (word ++ (blanks n ++ rest)), ?_, by simp, ?_, by simp⟩
        . rw [hcs]
          rfl
        . simpa using hword b List.mem_cons_self
    . refine ⟨a :: word, n, rest, ?_, ?_, hrest, hn⟩
      . rw [hcs]
        rfl
      . intro b hb
        rcases List.mem_cons.mp hb with rfl | hb
        . exact ha
        . exact hword b hb

theorem exists_span (p : Char → Bool) (cs : List Char) :
    ∃ as bs, cs = as ++ bs ∧ (∀ a ∈ as, p a = true) ∧ ∀ b, bs.head? = some b → p b = false := by
  induction cs with
  | nil => exact ⟨[], [], rfl, by simp, by simp⟩
  | cons c cs ih =>
    cases hc : p c with
    | false => exact ⟨[], c :: cs, rfl, by simp, by simp [hc]⟩
    | true =>
      obtain ⟨as, bs, rfl, has, hbs⟩ := ih
      refine ⟨c :: as, bs, rfl, ?_, hbs⟩
      intro a ha
      rcases List.mem_cons.mp ha with rfl | ha
      . exact hc
      . exact has a ha

theorem isPrintable_of_isClean {cs : List Char} (h : isClean cs = true) :
    ∀ a ∈ cs, isPrintable a = true := by
  rw [isClean, Bool.and_eq_true, List.all_eq_true] at h
  exact h.1

theorem hasNeighbours_of_isClean {cs : List Char} (h : isClean cs = true) :
    hasNeighbours (fun a b => a == ' ' && isBreak b) cs = false := by
  rw [isClean, Bool.and_eq_true, Bool.not_eq_true'] at h
  exact h.2

end Text

end ClusterRegistration.Yaml
