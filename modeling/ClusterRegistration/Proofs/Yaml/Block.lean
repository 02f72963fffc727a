import ClusterRegistration.Proofs.Yaml.Literal

namespace ClusterRegistration.Yaml

open Cursor

namespace Text

variable {as bs cs line : List Char} {a b : Char} {indent : Nat}

def ending (cs : List Char) : List Char :=
  if (cs.getLast?.map isBreak).getD false then [] else ['\n']

def sign : Scan.Chomping → List Char
  | .strip => ['-']
  | .clip => []
  | .keep => ['+']

theorem chomping_append (hne : cs ≠ []) (hhead : (cs.head?.map isBreak).getD false = false) :
    chomping (as ++ cs) = chomping cs := by
  unfold chomping
  rw [List.reverse_append]
  cases hreverse : cs.reverse with
  | nil =>
    rw [List.reverse_eq_nil_iff] at hreverse
    contradiction
  | cons d ds =>
    cases ds with
    | nil =>
      have hcs : cs = [d] := by
        rw [← List.reverse_reverse cs, hreverse]
        rfl
      rw [hcs] at hhead
      have hd : isBreak d = false := hhead
      cases as.reverse with
      | nil => rfl
      | cons e es => simp [hd]
    | cons e es => rfl

theorem ending_append (hne : cs ≠ []) : ending (as ++ cs) = ending cs := by
  unfold ending
  rw [List.getLast?_append, List.getLast?_eq_some_getLast hne]
  rfl

theorem ending_of_isBreak (h : ∀ b ∈ bs, isBreak b = true) (hne : bs ≠ []) : ending bs = [] := by
  unfold ending
  rw [List.getLast?_eq_some_getLast hne]
  exact if_pos (h _ (List.getLast_mem hne))

theorem chomping_of_isBreak (h : ∀ b ∈ bs, isBreak b = true) (hne : bs ≠ []) :
    chomping bs = ['+'] := by
  have hreverse : ∀ b ∈ bs.reverse, isBreak b = true := by
    intro b hb
    exact h b (List.mem_reverse.mp hb)
  unfold chomping
  cases hds : bs.reverse with
  | nil =>
    rw [List.reverse_eq_nil_iff] at hds
    contradiction
  | cons d ds =>
    rw [hds] at hreverse
    have hd := hreverse d List.mem_cons_self
    cases ds with
    | nil => simp [hd]
    | cons e ds =>
      have he := hreverse e (List.mem_cons_of_mem d List.mem_cons_self)
      simp [hd, he]

theorem literalBody_of_isBreak (h : ∀ b ∈ bs, isBreak b = true) :
    literalBody indent true (bs ++ cs) = bs ++ literalBody indent true cs := by
  induction bs with
  | nil => rfl
  | cons b bs ih =>
    have hb := h b List.mem_cons_self
    rw [List.cons_append, literalBody, if_pos hb, ih]
    . rfl
    . intro a ha
      exact h a (List.mem_cons_of_mem b ha)

theorem literalBody_of_not_isBreak (h : ∀ a ∈ line, isBreak a = false) :
    literalBody indent false (line ++ cs) = line ++ literalBody indent false cs := by
  induction line with
  | nil => rfl
  | cons a line ih =>
    have ha := h a List.mem_cons_self
    rw [List.cons_append, literalBody, if_neg (Bool.eq_false_iff.mp ha), ih]
    . rfl
    . intro b hb
      exact h b (List.mem_cons_of_mem a hb)

theorem literalBody_indented (hne : cs ≠ []) (hhead : (cs.head?.map isBreak).getD false = false) :
    literalBody indent true cs = blanks indent ++ literalBody indent false cs := by
  cases cs with
  | nil => contradiction
  | cons a cs =>
    have ha : isBreak a = false := hhead
    simp [literalBody, ha]

theorem literalBody_line (hline : ∀ a ∈ line, isBreak a = false)
    (hbs : ∀ a ∈ b :: bs, isBreak a = true) :
    literalBody indent false (line ++ b :: (bs ++ cs)) =
      line ++ b :: (bs ++ literalBody indent true cs) := by
  have hb := hbs b List.mem_cons_self
  rw [literalBody_of_not_isBreak hline, literalBody, if_pos hb, literalBody_of_isBreak]
  intro a ha
  exact hbs a (List.mem_cons_of_mem b ha)

theorem exists_line (hne : cs ≠ []) (hhead : (cs.head?.map isBreak).getD false = false) :
    ∃ line bs rest, cs = line ++ (bs ++ rest) ∧ line ≠ [] ∧ (∀ a ∈ line, isBreak a = false) ∧
      (∀ a ∈ bs, isBreak a = true) ∧ (∀ a, rest.head? = some a → isBreak a = false) ∧
        (bs = [] → rest = []) := by
  obtain ⟨line, tail, rfl, hline, htail⟩ := exists_span (!isBreak ·) cs
  obtain ⟨bs, rest, rfl, hbs, hrest⟩ := exists_span isBreak tail
  have htail (b : Char) (h : (bs ++ rest).head? = some b) : isBreak b = true := by
    simpa using htail b h
  refine ⟨line, bs, rest, rfl, ?_, ?_, hbs, hrest, ?_⟩
  . rintro rfl
    -- A text without a first line begins with a break.
    cases hcs : bs ++ rest with
    | nil => exact hne hcs
    | cons b tail =>
      rw [hcs] at hhead htail
      have hb : isBreak b = false := hhead
      rw [htail b rfl] at hb
      cases hb
  . intro a ha
    simpa using hline a ha
  . rintro rfl
    cases rest with
    | nil => rfl
    | cons a rest =>
      have ha := hrest a rfl
      rw [htail a rfl] at ha
      cases ha

section Line

variable (hne : line ≠ []) (hline : ∀ a ∈ line, isBreak a = false)

include hne hline

theorem exists_last : ∃ line' d, line = line' ++ [d] ∧ isBreak d = false := by
  have hconcat := List.dropLast_concat_getLast hne
  exact ⟨line.dropLast, line.getLast hne, hconcat.symm, hline _ (List.getLast_mem hne)⟩

theorem chomping_of_line : chomping line = ['-'] := by
  obtain ⟨line', d, rfl, hd⟩ := exists_last hne hline
  rw [chomping_append (List.cons_ne_nil _ _) hd]
  simp [chomping, hd]

theorem ending_of_line : ending line = ['\n'] := by
  obtain ⟨line', d, rfl, hd⟩ := exists_last hne hline
  simp [ending, hd]

theorem chomping_of_break (hb : isBreak b = true) : chomping (line ++ [b]) = [] := by
  obtain ⟨line', d, rfl, hd⟩ := exists_last hne hline
  simp [chomping, hb, hd]

end Line

theorem chomping_of_breaks {a b : Char} (as : List Char) (hbs : ∀ e ∈ a :: b :: bs, isBreak e = true) :
    chomping (as ++ a :: b :: bs) = ['+'] := by
  have ha := hbs a List.mem_cons_self
  have hb := hbs b (List.mem_cons_of_mem a List.mem_cons_self)
  -- The two last characters are both breaks.
  rcases List.eq_nil_or_concat bs with rfl | ⟨bs', e, rfl⟩
  . simp [chomping, ha, hb]
  . have he := hbs e (by simp)
    rcases List.eq_nil_or_concat bs' with rfl | ⟨bs'', d, rfl⟩
    . simp [chomping, hb, he]
    . have hd := hbs d (by simp)
      simp [chomping, hd, he]

end Text

namespace Scan

variable {began : Mark} {c : Cursor} {rest tail : List Char}

theorem exists_lines_of_line (indent : Nat) {line bs : List Char} (hne : line ≠ [])
    (hline : ∀ a ∈ line, isBreak a = false) (hbs : ∀ a ∈ bs, isBreak a = true)
    (hkept : ∀ a ∈ bs, isKept a = true) :
    ∃ kind, Text.chomping (line ++ bs) = Text.sign kind ∧
      Lines indent kind (line ++ bs) (Text.literalBody indent false (line ++ bs) ++
        Text.ending (line ++ bs)) := by
  cases bs with
  | nil =>
    have hbody : Text.literalBody indent false line = line := by
      have h := @Text.literalBody_of_not_isBreak [] line indent hline
      rwa [Text.literalBody, List.append_nil] at h
    rw [List.append_nil, hbody, Text.ending_of_line hne hline]
    exact ⟨.strip, Text.chomping_of_line hne hline, Lines.stripped hne hline⟩
  | cons b bs =>
    have hbody : Text.literalBody indent false (line ++ b :: bs) = line ++ b :: bs := by
      have h := @Text.literalBody_line bs [] line b indent hline hbs
      rwa [List.append_nil, Text.literalBody, List.append_nil] at h
    have hending : Text.ending (line ++ b :: bs) = [] := by
      rw [Text.ending_append (List.cons_ne_nil _ _)]
      exact Text.ending_of_isBreak hbs (List.cons_ne_nil _ _)
    rw [hbody, hending, List.append_nil]
    cases bs with
    | nil =>
      refine ⟨.clip, Text.chomping_of_break hne hline (hbs b List.mem_cons_self), ?_⟩
      exact Lines.clipped hne hline (hkept b List.mem_cons_self)
    | cons e bs => exact ⟨.keep, Text.chomping_of_breaks line hbs, Lines.kept hne hline hkept⟩

theorem exists_lines (indent : Nat) (cs : List Char) (hne : cs ≠ [])
    (hhead : (cs.head?.map isBreak).getD false = false)
    (hkept : ∀ a ∈ cs, isBreak a = true → isKept a = true) :
    ∃ kind, Text.chomping cs = Text.sign kind ∧
      Lines indent kind cs (Text.literalBody indent false cs ++ Text.ending cs) := by
  obtain ⟨line, bs, rest, rfl, hlinene, hline, hbs, hrest, hlast⟩ := Text.exists_line hne hhead
  have hbskept : ∀ a ∈ bs, isKept a = true := by
    intro a ha
    exact hkept a (List.mem_append_right _ (List.mem_append_left _ ha)) (hbs a ha)
  cases rest with
  | nil =>
    rw [List.append_nil]
    exact exists_lines_of_line indent hlinene hline hbs hbskept
  | cons a rest =>
    cases bs with
    | nil => cases hlast rfl
    | cons b bs =>
      -- What follows the breaks is a text that begins with content, and is shorter.
      have hhead' : ((a :: rest).head?.map isBreak).getD false = false := hrest a rfl
      have hne' : a :: rest ≠ [] := List.cons_ne_nil _ _
      have hsplit : line ++ (b :: bs ++ a :: rest) = (line ++ b :: bs) ++ a :: rest :=
        (List.append_assoc _ _ _).symm
      have hlength : (a :: rest).length < (line ++ (b :: bs ++ a :: rest)).length := by
        simp only [List.length_append, List.length_cons]
        omega
      have hkept' : ∀ e ∈ a :: rest, isBreak e = true → isKept e = true := by
        intro e he
        apply hkept
        rw [hsplit]
        exact List.mem_append_right _ he
      obtain ⟨kind, hkind, hlines⟩ := exists_lines indent (a :: rest) hne' hhead' hkept'
      refine ⟨kind, ?_, ?_⟩
      . rw [hsplit, Text.chomping_append hne' hhead', hkind]
      . have hbody : Text.literalBody indent false (line ++ (b :: bs ++ a :: rest)) =
            line ++ b :: (bs ++ (Text.blanks indent ++ Text.literalBody indent false (a :: rest))) := by
          rw [← Text.literalBody_indented hne' hhead', ← Text.literalBody_line hline hbs]
          rfl
        have hending : Text.ending (line ++ (b :: bs ++ a :: rest)) = Text.ending (a :: rest) := by
          rw [hsplit, Text.ending_append hne']
        have hmore := Lines.more hlinene hline hbskept hlines
        rw [hbody, hending]
        simpa only [List.append_assoc, List.cons_append] using hmore
termination_by cs.length

def increment (told : Bool) : List Char :=
  if told then ['2'] else []

theorem chomp_of_sign {kind : Chomping} (hrest : c.rest = Text.sign kind ++ '\n' :: tail) :
    blockHeader.chomp c =
      (if kind = .clip then none else some kind, pass (Text.sign kind) c) := by
  unfold blockHeader.chomp
  cases kind with
  | strip =>
    have hrest : c.rest = '-' :: '\n' :: tail := hrest
    rw [hrest]
    rfl
  | clip =>
    have hrest : c.rest = '\n' :: tail := hrest
    rw [hrest]
    rfl
  | keep =>
    have hrest : c.rest = '+' :: '\n' :: tail := hrest
    rw [hrest]
    rfl

theorem digit_of_break (hrest : c.rest = '\n' :: tail) :
    blockHeader.digit began c = .ok (none, c) := by
  unfold blockHeader.digit
  rw [hrest]
  rfl

theorem blockHeader_of_sign {kind : Chomping} {told : Bool}
    (hrest : c.rest = increment told ++ (Text.sign kind ++ '\n' :: tail)) :
    blockHeader began c =
      .ok (kind, if told then some 2 else none, pass (increment told ++ Text.sign kind) c) := by
  have hreturn : '\r' ∉ Text.sign kind := by
    cases kind <;> decide
  unfold blockHeader
  cases told with
  | false =>
    have hrest : c.rest = Text.sign kind ++ '\n' :: tail := hrest
    have hafter : (pass (Text.sign kind) c).rest = '\n' :: tail := rest_pass hrest hreturn
    rw [chomp_of_sign hrest]
    simp only [digit_of_break hafter, bind, Except.bind]
    cases kind <;> rfl
  | true =>
    have hrest : c.rest = '2' :: (Text.sign kind ++ '\n' :: tail) := hrest
    have hchomp : blockHeader.chomp c = (none, c) := by
      unfold blockHeader.chomp
      rw [hrest]
      rfl
    have hdigit : blockHeader.digit began c = .ok (some 2, c.skip) := by
      unfold blockHeader.digit
      rw [hrest]
      rfl
    rw [hchomp]
    simp only [hdigit, bind, Except.bind, chomp_of_sign (rest_skip hrest)]
    cases kind <;> rfl

theorem skipToLineEnd_of_break (hrest : c.rest = '\n' :: tail) : c.skipToLineEnd = c := by
  have hskip : c.skipWhile isBlank = c := by
    unfold skipWhile
    rw [hrest]
    rfl
  have hhash : c.is (· == '#') = false := by
    rw [is_of_rest _ hrest]
    decide
  unfold skipToLineEnd
  simp only [hskip, hhash, Bool.false_eq_true, ↓reduceIte]

def headline (told : Bool) (kind : Chomping) : List Char :=
  '|' :: (increment told ++ (Text.sign kind ++ ['\n']))

theorem rest_pass_headline {kind : Chomping} {told : Bool}
    (hrest : c.rest = headline told kind ++ tail) : (pass (headline told kind) c).rest = tail := by
  apply rest_pass hrest
  cases told <;> cases kind <;> decide

theorem column_pass_headline {kind : Chomping} {told : Bool}
    (hrest : c.rest = headline told kind ++ tail) :
    (pass (headline told kind) c).mark.column = 0 := by
  have hreturn : '\r' ∉ ('|' :: (increment told ++ Text.sign kind)) ++ ['\n'] := by
    cases told <;> cases kind <;> decide
  have hsplit : headline told kind = ('|' :: (increment told ++ Text.sign kind)) ++ '\n' :: [] := by
    unfold headline
    simp only [List.append_assoc, List.cons_append]
  rw [hsplit] at hrest ⊢
  rw [List.append_assoc] at hrest
  exact column_pass_break hrest (by decide) hreturn (by simp)

theorem block_of_headline {kind : Chomping} {told : Bool} (outer : Nat)
    (hrest : c.rest = headline told kind ++ tail) :
    block true outer c = (do
      let c' := pass (headline told kind) c
      let known := if told then outer + 2 else 0
      let (more, furthest, stop, c'') ←
        blockBreaks known c.mark (tail.length + 1) 0 c'.mark c'
      let indent := if known = 0 then max furthest (outer + 1) else known
      blockLines true indent kind c.mark (c''.rest.length + 1) [] [] more false stop c'') := by
  have hreturn : '\r' ∉ increment told ++ Text.sign kind := by
    cases told <;> cases kind <;> decide
  have htail := rest_pass_headline hrest
  have hrest : c.rest = '|' :: (increment told ++ (Text.sign kind ++ '\n' :: tail)) := by
    rw [hrest]
    unfold headline
    simp only [List.append_assoc, List.cons_append, List.nil_append]
  have hheader := @blockHeader_of_sign c.mark c.skip tail kind told (rest_skip hrest)
  have hafter : (pass (increment told ++ Text.sign kind) c.skip).rest = '\n' :: tail := by
    apply rest_pass _ hreturn
    rw [rest_skip hrest, List.append_assoc]
  have hline : endsLine (pass (increment told ++ Text.sign kind) c.skip).rest = true := by
    rw [hafter]
    rfl
  have hpass : (pass (increment told ++ Text.sign kind) c.skip).skipBreak =
      pass (headline told kind) c := by
    unfold headline
    rw [pass_cons, pass_of_not_isBreak (by decide), ← List.append_assoc, @pass_append _ ['\n'],
      pass_of_isBreak (by decide)]
  unfold block
  simp only [hheader, skipToLineEnd_of_break hafter, hline, hpass, htail, bind, Except.bind,
    Bool.not_true, Bool.false_eq_true, ↓reduceIte]
  cases told with
  | false =>
    have hmax : max ((outer : Int) + 1).toNat 1 = outer + 1 := by omega
    simp only [hmax]
    rfl
  | true =>
    have hknown : (0 : Int) ≤ (outer : Int) := by omega
    simp only [hknown, ↓reduceIte, Int.toNat_natCast]
    rfl

theorem column_pass_line {bs : List Char} {n : Nat} (hrest : c.rest = bs ++ (Text.blanks n ++ rest))
    (hbs : ∀ b ∈ bs, isKept b = true) (hcolumn : c.mark.column = 0) :
    (pass (bs ++ Text.blanks n) c).mark.column = n := by
  rw [pass_append]
  by_cases hne : bs = []
  . subst hne
    have hrest : c.rest = Text.blanks n ++ rest := hrest
    rw [pass_nil, column_pass hrest isBreak_of_mem_blanks, length_blanks, hcolumn, Nat.zero_add]
  . rw [column_pass_breaks hrest hne (fun b hb => isBreak_of_isKept (hbs b hb))
      (not_return_mem_kept hbs) isBreak_of_mem_blanks, length_blanks]

end Scan

namespace Text

def literal (indent : Nat) (cs : List Char) : List Char :=
  '|' :: indentation cs ++ chomping cs ++ ['\n'] ++ literalBody indent true cs ++ ending cs

theorem isKept_of_allowsLiteral {cs : List Char} (h : allowsLiteral cs = true) :
    ∀ a ∈ cs, isBreak a = true → isKept a = true := by
  rw [allowsLiteral, Bool.and_eq_true] at h
  intro a ha
  exact isKept_of_isPrintable (isPrintable_of_isClean h.1 a ha)

end Text

namespace Scan

section Literal

variable {outer m : Nat} {c : Cursor} {cs bs rest : List Char}

theorem block_of_breaks (hbs : ∀ b ∈ bs, isKept b = true) (hne : bs ≠ [])
    (hrest : c.rest = Text.literal (outer + 2) bs ++ (Text.blanks m ++ rest)) (hsolid : Solid rest)
    (hm : m < outer + 2) :
    ∃ stop, block true outer c =
      .ok (bs, stop, pass (Text.literal (outer + 2) bs ++ Text.blanks m) c) := by
  have hbreak : ∀ b ∈ bs, isBreak b = true := fun b hb => isBreak_of_isKept (hbs b hb)
  have hbody : Text.literalBody (outer + 2) true bs = bs := by
    have h := @Text.literalBody_of_isBreak bs [] (outer + 2) hbreak
    rwa [List.append_nil, Text.literalBody, List.append_nil] at h
  -- Without a line of content the indentation is always told.
  have hindentation : Text.indentation bs = increment true := by
    cases bs with
    | nil => exact absurd rfl hne
    | cons b bs =>
      unfold Text.indentation
      simp only [hbreak b List.mem_cons_self, Bool.or_true, ↓reduceIte]
      rfl
  have hliteral : Text.literal (outer + 2) bs = headline true .keep ++ bs := by
    unfold Text.literal
    rw [hbody, hindentation, Text.chomping_of_isBreak hbreak hne, Text.ending_of_isBreak hbreak hne]
    simp [headline, Text.sign]
  rw [hliteral, List.append_assoc] at hrest
  have hafter := rest_pass_headline hrest
  have hcolumn := column_pass_headline hrest
  obtain ⟨stop, hbreaks⟩ := @blockBreaks_of_kept c.mark _ rest m
    ((bs ++ (Text.blanks m ++ rest)).length + 1) bs (outer + 2) 0
    (pass (headline true .keep) c).mark hafter hbs hcolumn
    (.inr ⟨.inl hm, hsolid⟩) (by
      rw [List.length_append]
      omega)
  have hend := column_pass_line hafter hbs hcolumn
  refine ⟨stop, ?_⟩
  rw [hliteral, List.append_assoc, block_of_headline outer hrest]
  simp only [hbreaks, ↓reduceIte, bind, Except.bind]
  rw [if_neg (by omega), blockLines_end (by omega), @pass_append (headline true .keep)]
  rfl

theorem exists_increment {a : Char} {as : List Char} (hbs : ∀ b ∈ bs, isBreak b = true)
    (ha : isBreak a = false) :
    ∃ told, Text.indentation (bs ++ a :: as) = increment told ∧
      (told = true ∨ bs = [] ∧ told = false ∧ a ≠ ' ') := by
  cases bs with
  | nil =>
    by_cases hspace : a = ' '
    . exact ⟨true, by simp [Text.indentation, increment, hspace], .inl rfl⟩
    . exact ⟨false, by simp [Text.indentation, increment, hspace, ha], .inr ⟨rfl, rfl, hspace⟩⟩
  | cons b bs =>
    have hb := hbs b List.mem_cons_self
    exact ⟨true, by simp [Text.indentation, increment, hb], .inl rfl⟩

theorem block_of_content {a : Char} {as : List Char} (hbs : ∀ b ∈ bs, isKept b = true)
    (ha : isBreak a = false) (htab : a ≠ '\t')
    (hkept : ∀ b ∈ a :: as, isBreak b = true → isKept b = true)
    (hrest : c.rest = Text.literal (outer + 2) (bs ++ a :: as) ++ (Text.blanks m ++ rest))
    (hsolid : Solid rest) (hm : m < outer + 2) :
    ∃ stop, block true outer c = .ok (bs ++ a :: as, stop,
      pass (Text.literal (outer + 2) (bs ++ a :: as) ++ Text.blanks m) c) := by
  have hne : a :: as ≠ [] := List.cons_ne_nil _ _
  have hhead : ((a :: as).head?.map isBreak).getD false = false := ha
  have hbreak : ∀ b ∈ bs, isBreak b = true := fun b hb => isBreak_of_isKept (hbs b hb)
  obtain ⟨kind, hkind, hlines⟩ := exists_lines (outer + 2) (a :: as) hne hhead hkept
  obtain ⟨told, hindentation, htold⟩ := @exists_increment bs a as hbreak ha
  generalize hraw : Text.literalBody (outer + 2) false (a :: as) ++ Text.ending (a :: as) = raw at hlines
  have hliteral : Text.literal (outer + 2) (bs ++ a :: as) =
      headline told kind ++ (bs ++ (Text.blanks (outer + 2) ++ raw)) := by
    unfold Text.literal
    rw [hindentation, Text.chomping_append hne hhead, hkind, Text.literalBody_of_isBreak hbreak,
      Text.literalBody_indented hne hhead, Text.ending_append hne, ← hraw]
    simp only [headline, List.append_assoc, List.cons_append, List.nil_append]
  have hrest : c.rest = headline told kind ++
      (bs ++ (Text.blanks (outer + 2) ++ (raw ++ (Text.blanks m ++ rest)))) := by
    rw [hrest, hliteral]
    simp only [List.append_assoc]
  have hafter := rest_pass_headline hrest
  have hcolumn := column_pass_headline hrest
  have hindents : Indents (if told then outer + 2 else 0) (outer + 2)
      (raw ++ (Text.blanks m ++ rest)) := by
    rcases htold with rfl | ⟨rfl, rfl, hspace⟩
    . exact indents_of_lines hlines (by omega) _
    . -- The first line shows its indentation.
      have hsolid : Solid (raw ++ (Text.blanks m ++ rest)) := by
        have hblank : isBlankOrBreak a = false := by
          simp [isBlankOrBreak, isBlank, ha, hspace, htab]
        rw [← hraw, Text.literalBody, if_neg (Bool.eq_false_iff.mp ha)]
        exact hblank
      exact .inr ⟨.inr rfl, hsolid⟩
  obtain ⟨stop, hbreaks⟩ := @blockBreaks_of_kept c.mark _ (raw ++ (Text.blanks m ++ rest)) (outer + 2)
    ((bs ++ (Text.blanks (outer + 2) ++ (raw ++ (Text.blanks m ++ rest)))).length + 1) bs
    (if told then outer + 2 else 0) 0 (pass (headline told kind) c).mark hafter hbs hcolumn hindents (by
      rw [List.length_append]
      omega)
  -- Told or seen, it is the indentation with which the lines were written.
  have hindent : (if (if told = true then outer + 2 else 0) = 0 then max (max 0 (outer + 2)) (outer + 1)
      else if told = true then outer + 2 else 0) = outer + 2 := by
    split <;> split <;> omega
  have hline : (pass (bs ++ Text.blanks (outer + 2)) (pass (headline told kind) c)).rest =
      raw ++ (Text.blanks m ++ rest) := by
    rw [pass_append]
    exact rest_pass (rest_pass hafter (not_return_mem_kept hbs)) (return_not_mem_blanks (outer + 2))
  obtain ⟨stop', hread⟩ := @blockLines_of_lines c.mark
    (pass (bs ++ Text.blanks (outer + 2)) (pass (headline told kind) c)) rest
    ((raw ++ (Text.blanks m ++ rest)).length + 1) (outer + 2) [] [] bs false stop kind (a :: as) raw m
    hlines (by omega) hline hsolid hm (column_pass_line hafter hbs hcolumn) (by
      rw [List.length_append]
      omega)
  have hpass : pass (Text.literal (outer + 2) (bs ++ a :: as) ++ Text.blanks m) c =
      pass (raw ++ Text.blanks m) (pass (bs ++ Text.blanks (outer + 2)) (pass (headline told kind) c)) := by
    rw [hliteral, ← pass_append, ← pass_append]
    simp only [List.append_assoc]
  refine ⟨stop', ?_⟩
  rw [block_of_headline outer hrest]
  simp only [hbreaks, bind, Except.bind, hindent, hline, hread]
  rw [hpass]
  rfl

theorem block_of_allowsLiteral (h : Text.allowsLiteral cs = true) (hne : cs ≠ [])
    (hrest : c.rest = Text.literal (outer + 2) cs ++ (Text.blanks m ++ rest)) (hsolid : Solid rest)
    (hm : m < outer + 2) :
    ∃ stop, block true outer c =
      .ok (cs, stop, pass (Text.literal (outer + 2) cs ++ Text.blanks m) c) := by
  have hkept := Text.isKept_of_allowsLiteral h
  obtain ⟨bs, tail, rfl, hbs, htail⟩ := Text.exists_span isBreak cs
  have hbs : ∀ b ∈ bs, isKept b = true :=
    fun b hb => hkept b (List.mem_append_left tail hb) (hbs b hb)
  cases tail with
  | nil =>
    rw [List.append_nil] at *
    exact block_of_breaks hbs hne hrest hsolid hm
  | cons a as =>
    apply block_of_content hbs (htail a rfl) _ _ hrest hsolid hm
    . rintro rfl
      rw [Text.allowsLiteral, Bool.and_eq_true] at h
      have := Text.isPrintable_of_isClean h.1 '\t' (by simp)
      contradiction
    . intro b hb
      exact hkept b (List.mem_append_right bs hb)

end Literal

end Scan

namespace Text

variable {indent : Nat} {cs : List Char} {a b : Char}

theorem literalBody_concat (hb : isBreak b = true) (afterBreak : Bool) (cs : List Char) :
    literalBody indent afterBreak (cs ++ [b]) = literalBody indent afterBreak cs ++ [b] := by
  induction cs generalizing afterBreak with
  | nil => simp [literalBody, hb]
  | cons a cs ih =>
    rw [List.cons_append, literalBody, literalBody, ih, ih]
    split
    . rfl
    . rw [List.append_assoc, List.cons_append]

theorem mem_literalBody {afterBreak : Bool} (h : a ∈ literalBody indent afterBreak cs) :
    a = ' ' ∨ a ∈ cs := by
  induction cs generalizing afterBreak with
  | nil => cases h
  | cons c cs ih =>
    rw [literalBody] at h
    split at h
    . rcases List.mem_cons.mp h with rfl | h
      . exact .inr List.mem_cons_self
      . exact (ih h).imp_right (List.mem_cons_of_mem c)
    . rw [List.mem_append, List.mem_cons] at h
      rcases h with h | rfl | h
      . split at h
        . exact .inl (eq_of_mem_blanks a h)
        . cases h
      . exact .inr List.mem_cons_self
      . exact (ih h).imp_right (List.mem_cons_of_mem c)

theorem exists_break_literal (indent : Nat) (cs : List Char) :
    ∃ as b, literal indent cs = as ++ [b] ∧ isBreak b = true := by
  unfold literal ending
  split
  . next h =>
    rcases List.eq_nil_or_concat cs with rfl | ⟨cs, b, rfl⟩
    . cases h
    . rw [List.concat_eq_append] at *
      have hb : isBreak b = true := by
        simpa using h
      refine ⟨'|' :: indentation (cs ++ [b]) ++ chomping (cs ++ [b]) ++ ['\n'] ++
        literalBody indent true cs, b, ?_, hb⟩
      rw [List.append_nil, literalBody_concat hb, ← List.append_assoc]
  . exact ⟨_, '\n', rfl, by decide⟩

theorem mem_literal (h : a ∈ literal indent cs) : a ∈ cs ∨ a ∈ ['|', '2', '-', '+', '\n', ' '] := by
  have hindentation : ∀ a ∈ indentation cs, a = '2' := by
    intro a ha
    unfold indentation at ha
    split at ha
    . split at ha
      . simpa using ha
      . cases ha
    . cases ha
  have hchomping : ∀ a ∈ chomping cs, a = '-' ∨ a = '+' := by
    intro a ha
    unfold chomping at ha
    split at ha
    . exact .inl (List.mem_singleton.mp ha)
    . split at ha
      . exact .inr (List.mem_singleton.mp ha)
      . exact .inl (List.mem_singleton.mp ha)
    . split at ha
      . exact .inl (List.mem_singleton.mp ha)
      . split at ha
        . exact .inr (List.mem_singleton.mp ha)
        . cases ha
  have hending : ∀ a ∈ ending cs, a = '\n' := by
    intro a ha
    unfold ending at ha
    split at ha
    . cases ha
    . simpa using ha
  unfold literal at h
  simp only [List.mem_append, List.mem_cons, List.not_mem_nil, or_false] at h
  rcases h with ((((rfl | h) | h) | rfl) | h) | h
  . simp
  . simp [hindentation a h]
  . rcases hchomping a h with rfl | rfl <;> simp
  . simp
  . rcases mem_literalBody h with rfl | h
    . simp
    . exact .inl h
  . simp [hending a h]

end Text

end ClusterRegistration.Yaml
