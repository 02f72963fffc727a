import ClusterRegistration.Proofs.Yaml.Cursor
import ClusterRegistration.Yaml.Token.Scalar

namespace ClusterRegistration.Yaml

open Cursor

namespace Scan

variable {began : Mark} {c : Cursor} {rest tail : List Char} {n fuel : Nat}

def Indents (indent n : Nat) (rest : List Char) : Prop :=
  (n = indent ∧ 0 < indent ∧ (rest.head?.map isBreak).getD false = false) ∨
    ((n < indent ∨ indent = 0) ∧ Solid rest)

theorem takeWhile_blanks (hsolid : Solid rest) :
    ((Text.blanks n ++ rest).takeWhile (· == ' ')).length = n := by
  rw [takeWhile_append, length_blanks]
  . intro a ha
    rw [eq_of_mem_blanks a ha]
    rfl
  . cases rest with
    | nil => rfl
    | cons a rest =>
      have ha : isBlankOrBreak a = false := hsolid
      show (a == ' ') = false
      rw [beq_eq_false_iff_ne]
      rintro rfl
      contradiction

theorem le_length_takeWhile_blanks (n : Nat) (rest : List Char) :
    n ≤ ((Text.blanks n ++ rest).takeWhile (· == ' ')).length := by
  rw [List.takeWhile_append_of_pos]
  . rw [List.length_append, length_blanks]
    omega
  . intro a ha
    rw [eq_of_mem_blanks a ha]
    rfl

theorem skipIndent_of_indents {indent : Nat} (hrest : c.rest = Text.blanks n ++ rest)
    (hcolumn : c.mark.column = 0) (h : Indents indent n rest) :
    skipIndent indent c = pass (Text.blanks n) c := by
  unfold skipIndent
  rw [hrest, hcolumn, ← skipN_blanks]
  rcases h with ⟨rfl, hpos, -⟩ | ⟨hless, hsolid⟩
  . have hle := le_length_takeWhile_blanks n rest
    rw [if_neg (by omega), Nat.sub_zero, Nat.min_eq_right hle]
  . rw [takeWhile_blanks hsolid, Nat.sub_zero]
    split
    . rfl
    . next hindent =>
      have hle : n ≤ indent := by omega
      show c.skipN (min n indent) = c.skipN n
      rw [Nat.min_eq_left hle]

theorem blockBreaks_of_indents {indent furthest : Nat} {stop : Mark}
    (hrest : c.rest = Text.blanks n ++ rest) (hcolumn : c.mark.column = 0) (h : Indents indent n rest) :
    blockBreaks indent began (fuel + 1) furthest stop c =
      .ok ([], max furthest n, stop, pass (Text.blanks n) c) := by
  have hrest' : (pass (Text.blanks n) c).rest = rest := rest_pass hrest (return_not_mem_blanks n)
  have hcolumn' : (pass (Text.blanks n) c).mark.column = n := by
    rw [column_pass hrest isBreak_of_mem_blanks, hcolumn, length_blanks, Nat.zero_add]
  have hbreak : (pass (Text.blanks n) c).is isBreak = false := by
    cases rest with
    | nil => exact is_of_nil _ hrest'
    | cons a rest =>
      rw [is_of_rest _ hrest']
      rcases h with ⟨-, -, ha⟩ | ⟨-, ha⟩
      . exact ha
      . have ha : isBlankOrBreak a = false := ha
        rw [isBlankOrBreak, Bool.or_eq_false_iff] at ha
        exact ha.2
  -- A tab may stand there only if the line is known to be indented far enough.
  have htab : ((indent = 0 || n < indent) && (pass (Text.blanks n) c).is (· == '\t')) = false := by
    rw [Bool.and_eq_false_iff]
    rcases h with ⟨rfl, hpos, -⟩ | ⟨-, hsolid⟩
    . left
      simp
      omega
    . right
      cases rest with
      | nil => exact is_of_nil _ hrest'
      | cons a rest =>
        have ha : isBlankOrBreak a = false := hsolid
        rw [is_of_rest _ hrest', beq_eq_false_iff_ne]
        rintro rfl
        contradiction
  unfold blockBreaks
  simp only [skipIndent_of_indents hrest hcolumn h, hcolumn', htab, hbreak, Bool.false_eq_true,
    ↓reduceIte]

theorem blockBreaks_of_isKept {indent furthest : Nat} {stop : Mark} {b : Char}
    (hrest : c.rest = b :: rest) (hcolumn : c.mark.column = 0) (hb : isKept b = true) :
    blockBreaks indent began (fuel + 1) furthest stop c = (do
      let (bs, furthest, stop, c) ←
        blockBreaks indent began fuel furthest (pass [b] c).mark (pass [b] c)
      pure (b :: bs, furthest, stop, c)) := by
  have hbreak := isBreak_of_isKept hb
  have hskip : skipIndent indent c = c := by
    have hspaces : (c.rest.takeWhile (· == ' ')).length = 0 := by
      rw [hrest, List.takeWhile_cons_of_neg]
      . rfl
      . rw [beq_iff_eq]
        rintro rfl
        contradiction
    unfold skipIndent
    rw [hspaces]
    show (if indent = 0 then c.skipN 0 else c.skipN (min 0 (indent - c.mark.column))) = c
    rw [Nat.zero_min]
    split <;> rfl
  have htab : ((indent = 0 || c.mark.column < indent) && c.is (· == '\t')) = false := by
    have hb' : (b == '\t') = false := by
      rw [beq_eq_false_iff_ne]
      rintro rfl
      contradiction
    rw [is_of_rest _ hrest, hb', Bool.and_false]
  have his : c.is isBreak = true := by
    rw [is_of_rest _ hrest, hbreak]
  have hfurthest : max furthest c.mark.column = furthest := by
    rw [hcolumn, Nat.max_zero]
  conv =>
    lhs
    unfold blockBreaks
  simp only [hskip, htab, his, hfurthest, takeBreak_of_isBreak hrest hbreak, breakChar_of_isKept hb,
    Bool.false_eq_true, ↓reduceIte, List.singleton_append]

theorem blockBreaks_of_kept {bs : List Char} {indent furthest : Nat} {stop : Mark}
    (hrest : c.rest = bs ++ (Text.blanks n ++ rest)) (hbs : ∀ b ∈ bs, isKept b = true)
    (hcolumn : c.mark.column = 0) (h : Indents indent n rest) (hfuel : bs.length < fuel) :
    ∃ stop', blockBreaks indent began fuel furthest stop c =
      .ok (bs, max furthest n, stop', pass (bs ++ Text.blanks n) c) := by
  induction bs generalizing c fuel stop with
  | nil =>
    obtain ⟨fuel, rfl⟩ : ∃ m, fuel = m + 1 := ⟨fuel - 1, by omega⟩
    exact ⟨stop, blockBreaks_of_indents hrest hcolumn h⟩
  | cons b bs ih =>
    rw [List.length_cons] at hfuel
    obtain ⟨fuel, rfl⟩ : ∃ m, fuel = m + 1 := ⟨fuel - 1, by omega⟩
    have hb := hbs b List.mem_cons_self
    have hbs' : ∀ a ∈ bs, isKept a = true := fun a ha => hbs a (List.mem_cons_of_mem b ha)
    have hnext : (pass [b] c).rest = bs ++ (Text.blanks n ++ rest) := by
      apply @rest_pass [b] _ _ hrest
      apply not_return_mem_kept
      simpa using hb
    obtain ⟨stop', hfollowing⟩ := @ih (pass [b] c) fuel (pass [b] c).mark hnext hbs'
      (column_pass_kept hrest hb) (by omega)
    refine ⟨stop', ?_⟩
    rw [blockBreaks_of_isKept hrest hcolumn hb, hfollowing]
    rfl

section Lines

variable {indent : Nat} {text first more : List Char} {blank : Bool} {stop : Mark}
  {chomping : Chomping}

theorem blockLines_succ {line bs : List Char} {b : Char}
    (hrest : c.rest = line ++ (b :: (bs ++ (Text.blanks n ++ rest))))
    (hline : ∀ a ∈ line, isBreak a = false) (hbs : ∀ a ∈ b :: bs, isKept a = true)
    (hcolumn : c.mark.column = indent) (h : Indents indent n rest) :
    ∃ stop' blank', blockLines true indent chomping began (fuel + 1) text first more blank stop c =
      blockLines true indent chomping began fuel (text ++ (first ++ more) ++ line) [b] bs blank' stop'
        (pass (line ++ (b :: (bs ++ Text.blanks n))) c) := by
  have hb := hbs b List.mem_cons_self
  have hbs' : ∀ a ∈ bs, isKept a = true := fun a ha => hbs a (List.mem_cons_of_mem b ha)
  have hafter : (pass line c).rest = b :: (bs ++ (Text.blanks n ++ rest)) :=
    rest_pass hrest (return_not_mem hline)
  have hnext : (pass [b] (pass line c)).rest = bs ++ (Text.blanks n ++ rest) := by
    apply @rest_pass [b] _ _ hafter
    apply not_return_mem_kept
    simpa using hb
  obtain ⟨stop', hbreaks⟩ := @blockBreaks_of_kept began (pass [b] (pass line c)) rest n
    ((pass [b] (pass line c)).rest.length + 1) bs indent 0 (pass [b] (pass line c)).mark hnext hbs'
    (column_pass_kept hafter hb) h (by
      rw [hnext, List.length_append]
      omega)
  have htake : c.takeWhile (!isBreak ·) = (line, pass line c) := by
    have hline' : ∀ a ∈ line, (!isBreak a) = true := by
      intro a ha
      rw [hline a ha]
      rfl
    have hhead : ((b :: (bs ++ (Text.blanks n ++ rest))).head?.map (!isBreak ·)).getD false = false := by
      show (!isBreak b) = false
      rw [isBreak_of_isKept hb]
      rfl
    unfold Cursor.takeWhile
    rw [skipWhile_of_rest hrest hline' hhead hline, hrest, takeWhile_append hline' hhead]
  have hend : c.atEnd = false := atEnd_of_rest (by simp [hrest])
  refine ⟨stop', c.is isBlank, ?_⟩
  conv =>
    lhs
    unfold blockLines
  simp only [hcolumn, hend, htake, takeBreak_of_isBreak hafter (isBreak_of_isKept hb),
    breakChar_of_isKept hb, hbreaks, Bool.not_false, Bool.and_self, Bool.not_true, Bool.false_and,
    decide_true, Bool.false_eq_true, ↓reduceIte, bind, Except.bind]
  have hpass : pass (line ++ (b :: (bs ++ Text.blanks n))) c =
      pass (bs ++ Text.blanks n) (pass [b] (pass line c)) := by
    rw [pass_append]
    rfl
  rw [hpass]

def chomped (chomping : Chomping) (first more : List Char) : List Char :=
  match chomping with
  | .strip => []
  | .clip => first
  | .keep => first ++ more

theorem blockLines_end (hcolumn : c.mark.column ≠ indent) :
    blockLines true indent chomping began (fuel + 1) text first more blank stop c =
      .ok (text ++ chomped chomping first more, stop, c) := by
  have hcolumn' : (decide (c.mark.column = indent) && !c.atEnd) = false := by
    rw [decide_eq_false hcolumn, Bool.false_and]
  unfold blockLines
  simp only [Bool.and_eq_true, decide_eq_true_eq, hcolumn, false_and, ↓reduceIte]
  rfl

inductive Lines (indent : Nat) : Chomping → List Char → List Char → Prop where
  | stripped {line : List Char} (hne : line ≠ []) (hline : ∀ a ∈ line, isBreak a = false) :
    Lines indent .strip line (line ++ ['\n'])
  | clipped {line : List Char} {b : Char} (hne : line ≠ []) (hline : ∀ a ∈ line, isBreak a = false)
    (hb : isKept b = true) : Lines indent .clip (line ++ [b]) (line ++ [b])
  | kept {line bs : List Char} {b : Char} (hne : line ≠ []) (hline : ∀ a ∈ line, isBreak a = false)
    (hbs : ∀ a ∈ b :: bs, isKept a = true) : Lines indent .keep (line ++ b :: bs) (line ++ b :: bs)
  | more {chomping : Chomping} {line bs cs raw : List Char} {b : Char} (hne : line ≠ [])
    (hline : ∀ a ∈ line, isBreak a = false) (hbs : ∀ a ∈ b :: bs, isKept a = true)
    (h : Lines indent chomping cs raw) :
    Lines indent chomping (line ++ b :: (bs ++ cs)) (line ++ b :: (bs ++ (Text.blanks indent ++ raw)))

theorem indents_of_lines {cs raw : List Char} (h : Lines indent chomping cs raw) (hpos : 0 < indent)
    (as : List Char) : Indents indent indent (raw ++ as) := by
  have hhead {line bs : List Char} (hne : line ≠ []) (hline : ∀ a ∈ line, isBreak a = false) :
      ((line ++ bs).head?.map isBreak).getD false = false := by
    cases line with
    | nil => contradiction
    | cons a line => exact hline a List.mem_cons_self
  refine .inl ⟨rfl, hpos, ?_⟩
  cases h with
  | stripped hne hline =>
    rw [List.append_assoc]
    exact hhead hne hline
  | clipped hne hline hb =>
    rw [List.append_assoc]
    exact hhead hne hline
  | kept hne hline hbs =>
    rw [List.append_assoc]
    exact hhead hne hline
  | more hne hline hbs h =>
    rw [List.append_assoc]
    exact hhead hne hline

section Next

variable {line bs : List Char} {b : Char} (hrest : c.rest = line ++ (b :: (bs ++ (Text.blanks n ++ rest))))
  (hline : ∀ a ∈ line, isBreak a = false) (hbs : ∀ a ∈ b :: bs, isKept a = true)

include hrest hline hbs

theorem rest_next_line : (pass (line ++ (b :: (bs ++ Text.blanks n))) c).rest = rest := by
  have hafter : (pass line c).rest = (b :: bs) ++ (Text.blanks n ++ rest) :=
    rest_pass hrest (return_not_mem hline)
  rw [pass_append, ← List.cons_append, pass_append]
  exact rest_pass (rest_pass hafter (not_return_mem_kept hbs)) (return_not_mem_blanks n)

theorem column_next_line : (pass (line ++ (b :: (bs ++ Text.blanks n))) c).mark.column = n := by
  have hafter : (pass line c).rest = (b :: bs) ++ (Text.blanks n ++ rest) :=
    rest_pass hrest (return_not_mem hline)
  rw [pass_append, ← List.cons_append, pass_append]
  rw [column_pass_breaks hafter (List.cons_ne_nil _ _) (fun a ha => isBreak_of_isKept (hbs a ha))
    (not_return_mem_kept hbs) isBreak_of_mem_blanks, length_blanks]

end Next

theorem blockLines_last {line bs : List Char} {b : Char} {m : Nat}
    (hrest : c.rest = line ++ b :: bs ++ (Text.blanks m ++ rest))
    (hline : ∀ a ∈ line, isBreak a = false) (hbs : ∀ a ∈ b :: bs, isKept a = true)
    (hcolumn : c.mark.column = indent) (hsolid : Solid rest) (hm : m < indent) (hne : line ≠ [])
    (hfuel : (line ++ b :: bs).length < fuel) :
    ∃ stop', blockLines true indent chomping began fuel text first more blank stop c =
      .ok (text ++ (first ++ more) ++ (line ++ chomped chomping [b] bs), stop',
        pass (line ++ b :: bs ++ Text.blanks m) c) := by
  have hpos := List.length_pos_iff.mpr hne
  rw [List.length_append, List.length_cons] at hfuel
  obtain ⟨fuel, rfl⟩ : ∃ fuel', fuel = fuel' + 1 + 1 := ⟨fuel - 2, by omega⟩
  rw [List.append_assoc] at hrest
  obtain ⟨stop', blank', hstep⟩ := @blockLines_succ began c rest m (fuel + 1) indent text first more
    blank stop chomping line bs b hrest hline hbs hcolumn (.inr ⟨.inl hm, hsolid⟩)
  -- The line after the breaks is indented less, so it is no line of the text.
  have hcolumn' : (pass (line ++ (b :: (bs ++ Text.blanks m))) c).mark.column ≠ indent := by
    rw [column_next_line hrest hline hbs]
    omega
  refine ⟨stop', ?_⟩
  rw [hstep, blockLines_end hcolumn', List.append_assoc line, List.append_assoc _ line]
  rfl

theorem blockLines_of_lines {cs raw : List Char} {m : Nat} (h : Lines indent chomping cs raw)
    (hpos : 0 < indent) (hrest : c.rest = raw ++ (Text.blanks m ++ rest)) (hsolid : Solid rest)
    (hm : m < indent) (hcolumn : c.mark.column = indent) (hfuel : raw.length < fuel) :
    ∃ stop', blockLines true indent chomping began fuel text first more blank stop c =
      .ok (text ++ (first ++ more) ++ cs, stop', pass (raw ++ Text.blanks m) c) := by
  induction h generalizing text first more blank stop c fuel with
  | @stripped line hne hline =>
    have hbs : ∀ a ∈ ['\n'], isKept a = true := by simp [isKept]
    have hlast := @blockLines_last began c rest fuel indent text first more blank stop .strip line []
      '\n' m hrest hline hbs hcolumn hsolid hm hne hfuel
    rwa [chomped, List.append_nil] at hlast
  | @clipped line b hne hline hb =>
    have hbs : ∀ a ∈ [b], isKept a = true := by simpa using hb
    exact @blockLines_last began c rest fuel indent text first more blank stop .clip line [] b m hrest
      hline hbs hcolumn hsolid hm hne hfuel
  | @kept line bs b hne hline hbs =>
    exact @blockLines_last began c rest fuel indent text first more blank stop .keep line bs b m hrest
      hline hbs hcolumn hsolid hm hne hfuel
  | @more chomping line bs cs raw b hne hline hbs h ih =>
    obtain ⟨fuel, rfl⟩ : ∃ fuel', fuel = fuel' + 1 := ⟨fuel - 1, by omega⟩
    have hrest : c.rest =
        line ++ (b :: (bs ++ (Text.blanks indent ++ (raw ++ (Text.blanks m ++ rest))))) := by
      rw [hrest]
      simp only [List.append_assoc, List.cons_append]
    obtain ⟨stop', blank', hstep⟩ := @blockLines_succ began c (raw ++ (Text.blanks m ++ rest)) indent
      fuel indent text first more blank stop chomping line bs b hrest hline hbs hcolumn
      (indents_of_lines h hpos _)
    have hlength : raw.length < fuel := by
      have := List.length_pos_iff.mpr hne
      rw [List.length_append, List.length_cons, List.length_append, List.length_append] at hfuel
      omega
    -- The breaks after the line are handed on, as they count only if another line follows.
    obtain ⟨stop'', hfollowing⟩ := @ih (pass (line ++ (b :: (bs ++ Text.blanks indent))) c)
      fuel (text ++ (first ++ more) ++ line) [b] bs blank' stop' (rest_next_line hrest hline hbs)
      (column_next_line hrest hline hbs) hlength
    refine ⟨stop'', ?_⟩
    have hraw : line ++ b :: (bs ++ (Text.blanks indent ++ raw)) ++ Text.blanks m =
        (line ++ (b :: (bs ++ Text.blanks indent))) ++ (raw ++ Text.blanks m) := by
      simp only [List.append_assoc, List.cons_append]
    have htext : text ++ (first ++ more) ++ line ++ ([b] ++ bs) ++ cs =
        text ++ (first ++ more) ++ (line ++ b :: (bs ++ cs)) := by
      simp only [List.append_assoc, List.cons_append, List.nil_append]
    rw [hstep, hfollowing, hraw, htext, ← pass_append]

end Lines

end Scan

end ClusterRegistration.Yaml
