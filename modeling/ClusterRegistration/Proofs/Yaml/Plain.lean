import ClusterRegistration.Proofs.Yaml.Gap

namespace ClusterRegistration.Yaml

open Cursor

namespace Text

variable {as bs cs : List Char}

theorem colon_append (h : hasInnerIndicator.colon (as ++ bs) = false) :
    hasInnerIndicator.colon bs = false := by
  induction as with
  | nil => exact h
  | cons a as ih =>
    rw [List.cons_append, hasInnerIndicator.colon, Bool.or_eq_false_iff] at h
    exact ih h.2

theorem endsWord_of_colon_append (h : hasInnerIndicator.colon (as ++ ':' :: bs) = false) :
    endsWord bs = false := by
  have h := colon_append h
  rw [hasInnerIndicator.colon, Bool.or_eq_false_iff] at h
  simpa using h.1

structure Smooth (cs : List Char) : Prop where
  blank : ∀ a ∈ cs, isBlankOrBreak a = true → a = ' '
  colon : hasInnerIndicator.colon cs = false
  comment : hasComment cs = false
  last : cs.getLast? ≠ some ' '

theorem smooth_append (h : Smooth (as ++ bs)) : Smooth bs where
  blank a ha := h.blank a (List.mem_append_right as ha)
  colon := colon_append h.colon
  comment := hasNeighbours_append h.comment
  last := by
    cases hbs : bs with
    | nil => simp
    | cons b bs' =>
      rw [← hbs]
      have hlast := h.last
      rw [List.getLast?_append] at hlast
      cases hsome : bs.getLast? with
      | none => simp
      | some b =>
        rw [hsome] at hlast
        exact hlast

structure Word (cs : List Char) : Prop where
  ne : cs ≠ []
  solid : ∀ a ∈ cs, isBlankOrBreak a = false
  colon : cs.getLast? ≠ some ':'
  hash : cs.head? ≠ some '#'

inductive Words : List Char → Prop where
  | one {cs : List Char} (h : Word cs) : Words cs
  | more {word cs : List Char} (h : Word word) (n : Nat) (hcs : Words cs) :
    Words (word ++ (blanks (n + 1) ++ cs))

theorem solid_of_words (h : Words cs) (bs : List Char) : Solid (cs ++ bs) := by
  have hsolid {word : List Char} (h : Word word) (bs : List Char) : Solid (word ++ bs) := by
    cases word with
    | nil => exact absurd rfl h.ne
    | cons a word => exact h.solid a List.mem_cons_self
  cases h with
  | one h => exact hsolid h bs
  | more h n hcs =>
    rw [List.append_assoc]
    exact hsolid h _

theorem word_of_smooth {word tail : List Char} (h : Smooth (word ++ tail)) (hne : word ≠ [])
    (hspace : ∀ a ∈ word, a ≠ ' ') (hhash : (word ++ tail).head? ≠ some '#')
    (htail : endsWord tail = true) : Word word where
  ne := hne
  solid a ha := by
    rw [Bool.eq_false_iff]
    intro hblank
    exact hspace a ha (h.blank a (List.mem_append_left tail ha) hblank)
  colon hcolon := by
    obtain ⟨as, rfl⟩ := List.getLast?_eq_some_iff.mp hcolon
    have hends := h.colon
    rw [List.append_assoc, List.singleton_append] at hends
    rw [endsWord_of_colon_append hends] at htail
    cases htail
  hash := by
    cases word with
    | nil => contradiction
    | cons a word => exact hhash

theorem words_of_smooth {cs : List Char} (h : Smooth cs) (hne : cs ≠ [])
    (hspace : cs.head? ≠ some ' ') (hhash : cs.head? ≠ some '#') : Words cs := by
  obtain ⟨word, n, rest, hcs, hword, hrest, hn⟩ := exists_word cs
  subst hcs
  have hwordne : word ≠ [] := by
    rintro rfl
    cases n with
    | zero =>
      rw [hn rfl] at hne
      exact hne rfl
    | succ n => exact hspace rfl
  cases n with
  | zero =>
    rw [hn rfl] at h hhash ⊢
    rw [show word ++ (blanks 0 ++ []) = word from List.append_nil word] at *
    apply Words.one
    rw [← List.append_nil word] at h hhash
    exact word_of_smooth h hwordne hword hhash rfl
  | succ n =>
    apply Words.more (word_of_smooth h hwordne hword hhash rfl)
    have hrestne : rest ≠ [] := by
      rintro rfl
      apply h.last
      rw [List.append_nil, blanks, List.replicate_succ', ← List.append_assoc]
      exact List.getLast?_concat
    have hlength : rest.length < (word ++ (blanks (n + 1) ++ rest)).length := by
      rw [List.length_append, List.length_append, blanks, List.length_replicate]
      omega
    have hrestsmooth : Smooth rest := smooth_append (smooth_append h)
    apply words_of_smooth hrestsmooth hrestne hrest
    -- A `#` after a space would be a comment.
    intro hhash'
    obtain ⟨rest', rfl⟩ := List.head?_eq_some_iff.mp hhash'
    have hcomment := h.comment
    have hsplit : word ++ (blanks (n + 1) ++ '#' :: rest') =
        (word ++ blanks n) ++ ' ' :: '#' :: rest' := by
      rw [blanks, List.replicate_succ']
      simp [blanks]
    rw [hsplit] at hcomment
    have := of_hasNeighbours_append hcomment
    contradiction
termination_by cs.length

theorem startsWithIndicator_cons {a : Char} {cs : List Char}
    (h : startsWithIndicator (a :: cs) = false) :
    isIndicator a = false ∧ ((a == '?' || a == ':' || a == '-') && endsWord cs) = false := by
  unfold startsWithIndicator at h
  split at h
  . cases h
  . cases h
  . next heq =>
    cases heq
    rwa [Bool.or_eq_false_iff] at h
  . contradiction

theorem words_of_allowsPlain {cs : List Char} (h : allowsPlain cs = true) (hne : cs ≠ []) :
    Words cs := by
  simp only [allowsPlain, Bool.and_eq_true, Bool.not_eq_true', bne_iff_ne, ne_eq] at h
  obtain ⟨⟨⟨⟨⟨⟨hclean, hbreak⟩, hindicator⟩, hcolon⟩, hcomment⟩, hspace⟩, hlast⟩ := h
  cases cs with
  | nil => contradiction
  | cons a cs =>
    obtain ⟨ha, hword⟩ := startsWithIndicator_cons hindicator
    have hsmooth : Smooth (a :: cs) := by
      refine ⟨?_, ?_, hcomment, hlast⟩
      . intro b hb hblank
        rw [List.any_eq_false] at hbreak
        have hb' := hbreak b hb
        -- Of what is printable, only the space is a blank and no break.
        rcases eq_of_isPrintable (isPrintable_of_isClean hclean b hb) hblank with
          rfl | rfl | rfl | rfl
        . rfl
        . exact absurd (by decide) hb'
        . exact absurd (by decide) hb'
        . exact absurd (by decide) hb'
      . rw [hasInnerIndicator.colon, Bool.or_eq_false_iff]
        refine ⟨?_, hcolon⟩
        by_cases hhead : a = ':'
        . subst hhead
          simpa using hword
        . rw [Bool.and_eq_false_iff, beq_eq_false_iff_ne]
          exact .inl hhead
    apply words_of_smooth hsmooth hne hspace
    intro hhash
    rw [List.head?_cons, Option.some_inj] at hhash
    subst hhash
    exact absurd ha (by decide)

end Text

namespace Scan

variable {c : Cursor} {began : Mark}

theorem endsPlain_cons_of_not_isBlankOrBreak {a : Char} {as : List Char}
    (h : isBlankOrBreak a = false) (hcolon : a = ':' → endsWord as = false) :
    endsPlain false (a :: as) = false := by
  by_cases ha : a = ':'
  . subst ha
    exact hcolon rfl
  . unfold endsPlain
    split
    . contradiction
    . next heq =>
      cases heq
      exact absurd rfl ha
    . next heq =>
      cases heq
      rw [h]
      rfl

theorem plainWord_append {word tail : List Char} {fuel : Nat} (hrest : c.rest = word ++ tail)
    (hword : ∀ a ∈ word, isBlankOrBreak a = false)
    (hcolon : ∀ as bs, word = as ++ ':' :: bs → endsWord (bs ++ tail) = false)
    (htail : endsPlain false tail = true) (hfuel : word.length ≤ fuel) :
    plainWord false began fuel c = .ok (word, pass word c) := by
  -- A colon inside of the word is followed by more of it, and so does not end it.
  induction word generalizing c fuel with
  | nil =>
    have hrest : c.rest = tail := hrest
    cases fuel with
    | zero => rfl
    | succ fuel =>
      unfold plainWord
      cases tail with
      | nil =>
        rw [hrest]
        rfl
      | cons b tail =>
        have hcolon' : isUnexpectedColon false (b :: tail) = false := by
          unfold isUnexpectedColon
          split <;> rfl
        simp only [hrest, htail, hcolon', ↓reduceIte, Bool.false_eq_true, ite_self]
        rfl
  | cons a word ih =>
    rw [List.cons_append] at hrest
    cases fuel with
    | zero => cases hfuel
    | succ fuel =>
      have ha := hword a List.mem_cons_self
      have hend : endsPlain false (a :: (word ++ tail)) = false := by
        apply endsPlain_cons_of_not_isBlankOrBreak ha
        rintro rfl
        exact hcolon [] word rfl
      have hcolon' : isUnexpectedColon false (a :: (word ++ tail)) = false := by
        unfold isUnexpectedColon
        split <;> rfl
      have hfollowing : plainWord false began fuel c.skip = .ok (word, pass word c.skip) := by
        apply ih (rest_skip hrest)
        . intro b hb
          exact hword b (List.mem_cons_of_mem a hb)
        . rintro as bs rfl
          exact hcolon (a :: as) bs rfl
        . exact Nat.le_of_succ_le_succ hfuel
      have hbreak := isBreak_of_not_isBlankOrBreak ha
      unfold plainWord
      simp only [hrest, ha, hend, hcolon', hfollowing, Bool.false_eq_true, ↓reduceIte]
      rw [pass_cons, pass_of_not_isBreak hbreak]
      rfl

section Word

variable {word tail : List Char} (h : Text.Word word)

include h

theorem isBreak_of_word : ∀ a ∈ word, isBreak a = false :=
  fun a ha => isBreak_of_not_isBlankOrBreak (h.solid a ha)

theorem not_return_mem_word : '\r' ∉ word :=
  return_not_mem (isBreak_of_word h)

theorem plainWord_of_word (hrest : c.rest = word ++ tail) (htail : endsPlain false tail = true) :
    plainWord false began (c.rest.length + 1) c = .ok (word, pass word c) := by
  apply plainWord_append hrest h.solid _ htail
  . rw [hrest, List.length_append]
    omega
  . rintro as bs rfl
    apply endsWord_append
    cases bs with
    | nil => exact absurd List.getLast?_concat h.colon
    | cons b bs => exact h.solid b (by simp)

theorem plain_succ {text : List Char} {indent : Int} {fuel : Nat} {g g' : Gap} {stop : Mark}
    {c' : Cursor} (hrest : c.rest = word ++ tail) (htail : (tail.head?.map isBlankOrBreak) = some true)
    (hpos : 0 < c.mark.column)
    (hscan : ∀ check : Cursor → Except SyntaxError Unit,
      (∀ c : Cursor, c.is (· == '\t') = false → check c = .ok ()) →
      Gap.empty.scan check (tail.length + 1) (pass word c) = .ok (g', c')) :
    plain false indent began (fuel + 1) text g stop c =
      if (c'.mark.column : Int) < indent then
        .ok (⟨text ++ g.fold ++ word, (pass word c).mark, g'.afterBreak⟩, c')
      else plain false indent began fuel (text ++ g.fold ++ word) g' (pass word c).mark c' := by
  obtain ⟨b, tail, rfl, hb⟩ : ∃ b tail', tail = b :: tail' ∧ isBlankOrBreak b = true := by
    cases tail with
    | nil => cases htail
    | cons b tail => exact ⟨b, tail, rfl, by simpa using htail⟩
  have hpiece : plainWord false began (c.rest.length + 1) c = .ok (word, pass word c) := by
    apply plainWord_of_word h hrest
    unfold endsPlain
    split
    . rfl
    . next heq =>
      cases heq
      contradiction
    . next heq =>
      cases heq
      rw [hb]
      rfl
  have hrest' : (pass word c).rest = b :: tail := rest_pass hrest (not_return_mem_word h)
  have hstart : ((c.mark.column = 0 && isDocumentIndicator c.rest) || c.is (· == '#')) = false := by
    have hcolumn : decide (c.mark.column = 0) = false := decide_eq_false (Nat.ne_of_gt hpos)
    cases word with
    | nil => exact absurd rfl h.ne
    | cons a word =>
      have ha : (a == '#') = false := by
        simpa using h.hash
      rw [is_of_rest _ hrest, ha, hcolumn]
      rfl
  have hgap : (pass word c).is isBlankOrBreak = true := by
    rw [is_of_rest _ hrest', hb]
  have hempty : word.isEmpty = false := by
    rw [List.isEmpty_eq_false_iff]
    exact h.ne
  rw [← hrest'] at hscan
  conv =>
    lhs
    unfold plain
  simp only [hstart, hpiece, hempty, hgap, Bool.false_eq_true, ↓reduceIte, Bool.not_true,
    bind, Except.bind, pure, Except.pure, Bool.not_false, Bool.true_and, decide_eq_true_eq]
  rw [hscan]
  intro c hc
  rw [hc, Bool.and_false]
  rfl

end Word

theorem plain_of_words {cs rest text : List Char} {m : Nat} {indent : Int} {fuel : Nat} {g : Gap}
    {stop : Mark} (h : Text.Words cs)
    (hrest : c.rest = cs ++ '\n' :: (Text.blanks m ++ rest)) (hrest' : Solid rest)
    (hm : (m : Int) < indent) (hcolumn : indent ≤ c.mark.column) (hfuel : cs.length ≤ fuel) :
    ∃ stop', plain false indent began fuel text g stop c =
      .ok (⟨text ++ g.fold ++ cs, stop', true⟩, pass (cs ++ '\n' :: Text.blanks m) c) := by
  induction h generalizing text g stop c fuel with
  | @one cs h =>
    obtain ⟨fuel, rfl⟩ : ∃ n, fuel = n + 1 := by
      have hlength := List.length_pos_iff.mpr h.ne
      exact ⟨fuel - 1, by omega⟩
    have hafter : (pass cs c).rest = '\n' :: (Text.blanks m ++ rest) :=
      rest_pass hrest (not_return_mem_word h)
    have hline : (pass ['\n'] (pass cs c)).rest = Text.blanks m ++ rest :=
      rest_pass hafter (by decide)
    have hreturn : '\r' ∉ cs ++ ['\n'] := by
      rw [List.mem_append, not_or]
      exact ⟨not_return_mem_word h, by decide⟩
    have hcolumn' : (pass (cs ++ '\n' :: Text.blanks m) c).mark.column = m := by
      rw [column_pass_break hrest (by decide) hreturn isBreak_of_mem_blanks, length_blanks]
    have hscan (check : Cursor → Except SyntaxError Unit)
        (hcheck : ∀ c : Cursor, c.is (· == '\t') = false → check c = .ok ()) :
        Gap.empty.scan check (('\n' :: (Text.blanks m ++ rest)).length + 1) (pass cs c) =
          .ok (⟨[], ['\n'], [], true⟩, pass (cs ++ '\n' :: Text.blanks m) c) := by
      rw [Gap.scan_break hafter (by decide) rfl]
      rw [Gap.scan_indentation hline hrest' _ rfl hcheck]
      . rw [pass_append, pass_cons '\n']
        rfl
      . rw [List.length_cons, List.length_append, length_blanks]
        omega
    refine ⟨(pass cs c).mark, ?_⟩
    rw [plain_succ h hrest rfl (by omega) hscan, if_pos (by omega)]
  | @more word cs h n hcs ih =>
    obtain ⟨fuel, rfl⟩ : ∃ n, fuel = n + 1 := by
      have hlength := List.length_pos_iff.mpr h.ne
      rw [List.length_append] at hfuel
      exact ⟨fuel - 1, by omega⟩
    rw [List.append_assoc, List.append_assoc] at hrest
    have hafter := rest_pass hrest (not_return_mem_word h)
    have hsolid : Solid (cs ++ '\n' :: (Text.blanks m ++ rest)) := Text.solid_of_words hcs _
    have hnext := rest_pass hafter (return_not_mem_blanks (n + 1))
    have hcolumn' : (pass (Text.blanks (n + 1)) (pass word c)).mark.column =
        c.mark.column + word.length + (n + 1) := by
      rw [column_pass hafter isBreak_of_mem_blanks, length_blanks]
      rw [column_pass hrest (isBreak_of_word h)]
    have hscan (check : Cursor → Except SyntaxError Unit)
        (_ : ∀ c : Cursor, c.is (· == '\t') = false → check c = .ok ()) :
        Gap.empty.scan check
          ((Text.blanks (n + 1) ++ (cs ++ '\n' :: (Text.blanks m ++ rest))).length + 1) (pass word c) =
          .ok ({ Gap.empty with blanks := [] ++ Text.blanks (n + 1) },
            pass (Text.blanks (n + 1)) (pass word c)) := by
      apply Gap.scan_blanks hafter hsolid _ rfl
      rw [List.length_append, length_blanks]
      omega
    have hfuel' : cs.length ≤ fuel := by
      have hlength := List.length_pos_iff.mpr h.ne
      rw [List.length_append, List.length_append] at hfuel
      omega
    -- Still on the same line, the column is not less than before.
    obtain ⟨stop', hfollowing⟩ := ih hnext (by omega) hfuel'
    refine ⟨stop', ?_⟩
    rw [plain_succ h hrest rfl (by omega) hscan, if_neg (by omega), hfollowing]
    simp only [Gap.fold, Gap.empty, Bool.false_eq_true, ↓reduceIte, List.nil_append, List.append_assoc,
      pass_append]

theorem plain_of_key {key tail text : List Char} {indent : Int} {fuel : Nat} {g : Gap} {stop : Mark}
    (h : Text.Word key) (hrest : c.rest = key ++ ':' :: tail) (htail : endsWord tail = true)
    (hindicator : isDocumentIndicator c.rest = false) :
    plain false indent began (fuel + 1) text g stop c =
      .ok (⟨text ++ g.fold ++ key, (pass key c).mark, false⟩, pass key c) := by
  have hpiece : plainWord false began (c.rest.length + 1) c = .ok (key, pass key c) :=
    plainWord_of_word h hrest htail
  have hrest' : (pass key c).rest = ':' :: tail := rest_pass hrest (not_return_mem_word h)
  have hstart : ((c.mark.column = 0 && isDocumentIndicator c.rest) || c.is (· == '#')) = false := by
    cases key with
    | nil => exact absurd rfl h.ne
    | cons a key =>
      have ha : (a == '#') = false := by
        simpa using h.hash
      rw [is_of_rest _ hrest, ha, hindicator, Bool.and_false]
      rfl
  have hgap : (pass key c).is isBlankOrBreak = false := by
    rw [is_of_rest _ hrest']
    decide
  have hempty : key.isEmpty = false := by
    rw [List.isEmpty_eq_false_iff]
    exact h.ne
  conv =>
    lhs
    unfold plain
  simp only [hstart, hpiece, hempty, hgap, Bool.false_eq_true, ↓reduceIte, bind, Except.bind, pure,
    Except.pure, Bool.not_false]
  rfl

end Scan

end ClusterRegistration.Yaml
