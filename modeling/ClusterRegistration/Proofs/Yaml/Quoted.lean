import ClusterRegistration.Proofs.Text.Utf8
import ClusterRegistration.Proofs.Yaml.Gap

namespace ClusterRegistration.Yaml

open Cursor

namespace Scan

def quote (single : Bool) : Char :=
  if single then '\'' else '"'

def endsPiece (single : Bool) : List Char → Bool
  | [] => false
  | a :: rest => isBlankOrBreak a || (a == quote single && rest.head? != some '\'')

structure Piece (single : Bool) (cs raw : List Char) : Prop where
  solid : ∀ a ∈ raw, isBlankOrBreak a = false
  reads : ∀ {began : Mark} {tail : List Char} {c : Cursor} {fuel : Nat}, c.rest = raw ++ tail →
    endsPiece single tail = true → raw.length ≤ fuel →
      quotedWord single began fuel c = .ok (cs, false, pass raw c)

theorem piece_nil (single : Bool) : Piece single [] [] where
  solid a ha := by cases ha
  reads := by
    intro began tail c fuel hrest htail hfuel
    have hrest : c.rest = tail := hrest
    cases fuel with
    | zero => rfl
    | succ fuel =>
      cases tail with
      | nil => cases htail
      | cons a tail =>
        unfold quotedWord
        cases hblank : isBlankOrBreak a with
        | true =>
          simp only [hrest, hblank, ↓reduceIte]
          rfl
        | false =>
          simp only [endsPiece, hblank, Bool.false_or, Bool.and_eq_true, beq_iff_eq, bne_iff_ne,
            ne_eq] at htail
          obtain ⟨rfl, hhead⟩ := htail
          cases single with
          | true =>
            have hquote : (quote true == '\'') = true := rfl
            simp only [hrest, hblank, hquote, hhead, Bool.and_self, Bool.false_eq_true, ↓reduceIte]
            rfl
          | false =>
            have hquote : (quote false == '"') = true := rfl
            simp only [hrest, hblank, hquote, Bool.not_false, Bool.false_and, Bool.and_self,
              Bool.false_eq_true, ↓reduceIte]
            rfl

theorem piece_cons {single : Bool} {a : Char} {r cs raw : List Char} (h : Piece single cs raw)
    (hr : ∀ b ∈ r, isBlankOrBreak b = false) (hne : r ≠ [])
    (hread : ∀ {began : Mark} {tail : List Char} {c : Cursor} {fuel : Nat}, c.rest = r ++ tail →
      quotedWord single began (fuel + 1) c = (do
        let (cs, broken, c) ← quotedWord single began fuel (pass r c)
        pure (a :: cs, broken, c))) : Piece single (a :: cs) (r ++ raw) where
  solid b hb := by
    rcases List.mem_append.mp hb with hb | hb
    . exact hr b hb
    . exact h.solid b hb
  reads := by
    intro began tail c fuel hrest htail hfuel
    have hlength := List.length_pos_iff.mpr hne
    rw [List.length_append] at hfuel
    obtain ⟨fuel, rfl⟩ : ∃ n, fuel = n + 1 := ⟨fuel - 1, by omega⟩
    rw [List.append_assoc] at hrest
    have hreturn : '\r' ∉ r := return_not_mem (fun b hb => isBreak_of_not_isBlankOrBreak (hr b hb))
    have hfollowing : quotedWord single began fuel (pass r c) =
        .ok (cs, false, pass raw (pass r c)) :=
      h.reads (rest_pass hrest hreturn) htail (by omega)
    rw [hread hrest, hfollowing, pass_append]
    rfl

theorem quotedWord_of_ordinary {single : Bool} {began : Mark} {a : Char} {tail : List Char} {c : Cursor}
    {fuel : Nat} (hrest : c.rest = [a] ++ tail) (ha : isBlankOrBreak a = false)
    (hquote : a ≠ quote single) (hescape : single = true ∨ a ≠ '\\') :
    quotedWord single began (fuel + 1) c = (do
      let (cs, broken, c) ← quotedWord single began fuel (pass [a] c)
      pure (a :: cs, broken, c)) := by
  have hrest : c.rest = a :: tail := hrest
  have hbreak := isBreak_of_not_isBlankOrBreak ha
  have hquote' : (a == quote single) = false := by
    rw [beq_eq_false_iff_ne]
    exact hquote
  rw [pass_of_not_isBreak hbreak]
  conv =>
    lhs
    unfold quotedWord
  cases single with
  | true =>
    have hquote'' : (a == '\'') = false := hquote'
    simp only [hrest, ha, hquote'', Bool.and_false, Bool.not_true, Bool.false_and, Bool.false_eq_true,
      ↓reduceIte]
  | false =>
    have hquote'' : (a == '"') = false := hquote'
    have hescape' : (a == '\\') = false := by
      rw [beq_eq_false_iff_ne]
      exact hescape.resolve_left Bool.false_ne_true
    simp only [hrest, ha, hquote'', hescape', Bool.and_false, Bool.not_false, Bool.false_and,
      Bool.false_eq_true, ↓reduceIte]

def double (a : Char) : List Char :=
  if a == '\'' then ['\'', '\''] else [a]

theorem quotedWord_of_doubled {began : Mark} {tail : List Char} {c : Cursor} {fuel : Nat}
    (hrest : c.rest = ['\'', '\''] ++ tail) :
    quotedWord true began (fuel + 1) c = (do
      let (cs, broken, c) ← quotedWord true began fuel (pass ['\'', '\''] c)
      pure ('\'' :: cs, broken, c)) := by
  have hrest : c.rest = '\'' :: '\'' :: tail := hrest
  have hblank : isBlankOrBreak '\'' = false := by decide
  have hskip : pass ['\'', '\''] c = c.skipN 2 := (skipN_length (by simp [isBreak]) c).symm
  rw [hskip]
  conv =>
    lhs
    unfold quotedWord
  simp only [hrest, hblank, beq_self_eq_true, Bool.and_self, List.head?_cons, Bool.false_eq_true,
    ↓reduceIte]

theorem piece_double {cs : List Char} (h : ∀ a ∈ cs, isBlankOrBreak a = false) :
    Piece true cs (cs.flatMap double) := by
  induction cs with
  | nil => exact piece_nil true
  | cons a cs ih =>
    have ha := h a List.mem_cons_self
    have ih := ih (fun b hb => h b (List.mem_cons_of_mem a hb))
    rw [List.flatMap_cons]
    by_cases hquote : a = '\''
    . subst hquote
      exact piece_cons ih (by simp [double, ha]) (List.cons_ne_nil _ _) quotedWord_of_doubled
    . have hdouble : double a = [a] := by
        unfold double
        rw [if_neg]
        simpa using hquote
      rw [hdouble]
      apply piece_cons ih _ (List.cons_ne_nil _ _)
      . intro began tail c fuel hrest
        exact quotedWord_of_ordinary hrest ha hquote (.inl rfl)
      . intro b hb
        rw [List.mem_singleton] at hb
        rw [hb, ha]

section Escape

variable {a : Char} {began : Mark} {tail : List Char} {c : Cursor} {fuel : Nat}

theorem toNat_lt (a : Char) : a.toNat < 0x110000 := by
  rcases Text.Utf8.toNat_bounds a with h | ⟨-, h⟩
  . omega
  . exact h

theorem hexDigit?_upperHexDigit : ∀ d < 16, hexDigit? (Text.upperHexDigit d) = some d := by
  decide

theorem isBlankOrBreak_upperHexDigit : ∀ d < 16, isBlankOrBreak (Text.upperHexDigit d) = false := by
  decide

theorem isBlankOrBreak_of_mem_hex {count n : Nat} : ∀ b ∈ Text.hex count n, isBlankOrBreak b = false := by
  induction count generalizing n with
  | zero =>
    intro b hb
    cases hb
  | succ count ih =>
    intro b hb
    rw [Text.hex, List.mem_append, List.mem_singleton] at hb
    rcases hb with hb | rfl
    . exact ih b hb
    . exact isBlankOrBreak_upperHexDigit _ (Nat.mod_lt _ (by decide))

theorem length_hex (count n : Nat) : (Text.hex count n).length = count := by
  induction count generalizing n with
  | zero => rfl
  | succ count ih => rw [Text.hex, List.length_append, ih, List.length_singleton]

theorem mapM_hex (count n : Nat) (h : n < Nat.pow 16 count) :
    ∃ ds, (Text.hex count n).mapM hexDigit? = some ds ∧ ds.length = count ∧
      ds.foldl (fun n d => n * 16 + d) 0 = n := by
  induction count generalizing n with
  | zero =>
    refine ⟨[], rfl, rfl, ?_⟩
    have h : n < 1 := h
    rw [Nat.lt_one_iff] at h
    rw [h]
    rfl
  | succ count ih =>
    have hdigit := hexDigit?_upperHexDigit (n % 16) (Nat.mod_lt n (by decide))
    have h : n < Nat.pow 16 count * 16 := h
    obtain ⟨ds, hds, hlength, hvalue⟩ := ih (n / 16) (by omega)
    refine ⟨ds ++ [n % 16], ?_, ?_, ?_⟩
    . rw [Text.hex, List.mapM_append, hds, List.mapM_cons, hdigit]
      rfl
    . rw [List.length_append, hlength, List.length_singleton]
    . rw [List.foldl_append, hvalue]
      simp only [List.foldl_cons, List.foldl_nil]
      omega

theorem escape_of_simple {letter : Char} (hrest : c.rest = ['\\', letter] ++ tail)
    (h : simpleEscape? letter = some a) : escape began c = .ok (a, c.skipN 2) := by
  have hrest : c.rest = '\\' :: letter :: tail := hrest
  unfold escape
  simp only [hrest, h]

theorem escape_of_hex {letter : Char} {count : Nat}
    (hrest : c.rest = '\\' :: letter :: Text.hex count a.toNat ++ tail)
    (h : simpleEscape? letter = none) (hcount : escapeLength? letter = some count)
    (ha : a.toNat < Nat.pow 16 count) : escape began c = .ok (a, (c.skipN 2).skipN count) := by
  have hrest : c.rest = '\\' :: letter :: (Text.hex count a.toNat ++ tail) := hrest
  obtain ⟨ds, hds, hlength, hvalue⟩ := mapM_hex count a.toNat ha
  have htake : (Text.hex count a.toNat ++ tail).take count = Text.hex count a.toNat :=
    List.take_left' (length_hex count a.toNat)
  unfold escape
  rw [hrest]
  dsimp only
  rw [h]
  dsimp only
  rw [hcount]
  dsimp only
  rw [htake, hds]
  dsimp only
  rw [hlength, if_neg (Nat.lt_irrefl count)]
  generalize ds.foldl (fun n d => n * 16 + d) 0 = n at hvalue ⊢
  subst hvalue
  have hvalid : a.toNat.isValidChar := a.valid
  rw [dif_pos hvalid]
  rfl

theorem quotedWord_of_escape {letter : Char} {ds : List Char}
    (hrest : c.rest = ('\\' :: letter :: ds) ++ tail) (hletter : isBreak letter = false)
    (h : escape began c = .ok (a, pass ('\\' :: letter :: ds) c)) :
    quotedWord false began (fuel + 1) c = (do
      let (cs, broken, c) ← quotedWord false began fuel (pass ('\\' :: letter :: ds) c)
      pure (a :: cs, broken, c)) := by
  have hrest : c.rest = '\\' :: letter :: (ds ++ tail) := hrest
  have hblank : isBlankOrBreak '\\' = false := by decide
  have hquote : ('\\' == '"') = false := by decide
  have hends : endsLine (letter :: (ds ++ tail)) = false := hletter
  conv =>
    lhs
    unfold quotedWord
  simp only [hrest, hblank, hquote, hends, h, Bool.false_and, Bool.not_false, Bool.and_false,
    Bool.true_and, beq_self_eq_true, Bool.false_eq_true, ↓reduceIte]
  rfl

theorem piece_simple {letter : Char} {cs raw : List Char} (h : Piece false cs raw)
    (hletter : isBlankOrBreak letter = false) (ha : simpleEscape? letter = some a) :
    Piece false (a :: cs) (['\\', letter] ++ raw) := by
  have hbreak := isBreak_of_not_isBlankOrBreak hletter
  apply piece_cons h _ (List.cons_ne_nil _ _)
  . intro began tail c fuel hrest
    apply quotedWord_of_escape hrest hbreak
    rw [escape_of_simple hrest ha]
    rw [← skipN_length]
    . rfl
    . intro b hb
      simp only [List.mem_cons, List.not_mem_nil, or_false] at hb
      rcases hb with rfl | rfl
      . decide
      . exact hbreak
  . intro b hb
    simp only [List.mem_cons, List.not_mem_nil, or_false] at hb
    rcases hb with rfl | rfl
    . decide
    . exact hletter

theorem piece_hex {letter : Char} {count : Nat} {cs raw : List Char} (h : Piece false cs raw)
    (hletter : isBlankOrBreak letter = false) (hnone : simpleEscape? letter = none)
    (hcount : escapeLength? letter = some count) (ha : a.toNat < Nat.pow 16 count) :
    Piece false (a :: cs) ('\\' :: letter :: Text.hex count a.toNat ++ raw) := by
  have hsolid : ∀ b ∈ '\\' :: letter :: Text.hex count a.toNat, isBlankOrBreak b = false := by
    intro b hb
    rw [List.mem_cons, List.mem_cons] at hb
    rcases hb with rfl | rfl | hb
    . decide
    . exact hletter
    . exact isBlankOrBreak_of_mem_hex b hb
  have hbreak : ∀ b ∈ '\\' :: letter :: Text.hex count a.toNat, isBreak b = false :=
    fun b hb => isBreak_of_not_isBlankOrBreak (hsolid b hb)
  apply piece_cons h hsolid (List.cons_ne_nil _ _)
  intro began tail c fuel hrest
  apply quotedWord_of_escape hrest (hbreak letter (by simp))
  rw [escape_of_hex hrest hnone hcount ha]
  rw [← skipN_length hbreak, List.length_cons, List.length_cons, length_hex]
  rfl

theorem piece_escape {cs raw : List Char} (h : Piece false cs raw) (ha : a ≠ ' ') :
    Piece false (a :: cs) (Text.escape a ++ raw) := by
  unfold Text.escape
  split
  case h_15 hquote hbackslash _ _ _ htab hfeed _ _ hreturn _ hnext hline hparagraph =>
    split
    . next hprintable =>
      have hsolid : isBlankOrBreak a = false := by
        rw [isBlankOrBreak, isBlank, isBreak]
        simp only [Bool.or_eq_false_iff, beq_eq_false_iff_ne]
        exact ⟨⟨ha, htab⟩, ⟨⟨⟨hreturn, hfeed⟩, hnext⟩, hline⟩, hparagraph⟩
      apply piece_cons h _ (List.cons_ne_nil _ _)
      . intro began tail c fuel hrest
        exact quotedWord_of_ordinary hrest hsolid hquote (.inr hbackslash)
      . intro b hb
        rw [List.mem_singleton] at hb
        rw [hb, hsolid]
    . show Piece false (a :: cs) ((if a.toNat ≤ 0xFF then _ else if a.toNat ≤ 0xFFFF then _ else _) ++ raw)
      split
      . next hle => exact piece_hex h (by decide) rfl rfl (Nat.lt_succ_of_le hle)
      . split
        . next hle => exact piece_hex h (by decide) rfl rfl (Nat.lt_succ_of_le hle)
        . exact piece_hex h (by decide) rfl rfl (Nat.lt_trans (toNat_lt a) (by decide))
  all_goals exact piece_simple h (by decide) (by decide)

end Escape

section Loop

variable {single : Bool} {began : Mark} {fuel : Nat} {text cs raw tail : List Char} {c c' : Cursor}
  {g : Gap}

theorem isBreak_of_piece (h : Piece single cs raw) : ∀ a ∈ raw, isBreak a = false :=
  fun a ha => isBreak_of_not_isBlankOrBreak (h.solid a ha)

theorem not_return_mem_piece (h : Piece single cs raw) : '\r' ∉ raw :=
  return_not_mem (isBreak_of_piece h)

theorem quotedWord_of_piece (h : Piece single cs raw) (hrest : c.rest = raw ++ tail)
    (htail : endsPiece single tail = true) :
    quotedWord single began (c.rest.length + 1) c = .ok (cs, false, pass raw c) := by
  apply h.reads hrest htail
  rw [hrest, List.length_append]
  omega

theorem quoted_last (h : Piece single cs raw) (hrest : c.rest = raw ++ quote single :: tail)
    (htail : tail.head? ≠ some '\'') (hpos : 0 < c.mark.column) :
    quoted single began (fuel + 1) text c = .ok (text ++ cs, pass (raw ++ [quote single]) c) := by
  have hends : endsPiece single (quote single :: tail) = true := by
    have hhead : (tail.head? != some '\'') = true := by
      rw [bne_iff_ne]
      exact htail
    simp [endsPiece, hhead]
  have hpiece : quotedWord single began (c.rest.length + 1) c = .ok (cs, false, pass raw c) :=
    quotedWord_of_piece h hrest hends
  have hrest' : (pass raw c).rest = quote single :: tail := rest_pass hrest (not_return_mem_piece h)
  have hcolumn : decide (c.mark.column = 0) = false := decide_eq_false (Nat.ne_of_gt hpos)
  have hatEnd : c.atEnd = false := atEnd_of_rest (by simp [hrest])
  have hquote : (pass raw c).is (· == (if single then '\'' else '"')) = true := by
    rw [is_of_rest _ hrest']
    exact beq_self_eq_true _
  have hbreak : isBreak (quote single) = false := by
    cases single <;> decide
  rw [pass_append, pass_of_not_isBreak hbreak]
  conv =>
    lhs
    unfold quoted
  simp only [hcolumn, hatEnd, hpiece, hquote, Bool.false_and, Bool.false_eq_true, ↓reduceIte, bind,
    Except.bind, pure, Except.pure]

theorem quoted_succ (h : Piece single cs raw) (hrest : c.rest = raw ++ tail)
    (htail : tail.head?.map isBlankOrBreak = some true) (hpos : 0 < c.mark.column)
    (hscan : Gap.empty.scan (fun _ => .ok ()) (tail.length + 1) (pass raw c) = .ok (g, c')) :
    quoted single began (fuel + 1) text c = quoted single began fuel (text ++ cs ++ g.fold) c' := by
  obtain ⟨b, tail, rfl, hb⟩ : ∃ b tail', tail = b :: tail' ∧ isBlankOrBreak b = true := by
    cases tail with
    | nil => cases htail
    | cons b tail => exact ⟨b, tail, rfl, by simpa using htail⟩
  have hends : endsPiece single (b :: tail) = true := by
    simp [endsPiece, hb]
  have hpiece : quotedWord single began (c.rest.length + 1) c = .ok (cs, false, pass raw c) :=
    quotedWord_of_piece h hrest hends
  have hrest' : (pass raw c).rest = b :: tail := rest_pass hrest (not_return_mem_piece h)
  have hcolumn : decide (c.mark.column = 0) = false := decide_eq_false (Nat.ne_of_gt hpos)
  have hatEnd : c.atEnd = false := atEnd_of_rest (by simp [hrest])
  have hquote : (pass raw c).is (· == (if single then '\'' else '"')) = false := by
    rw [is_of_rest _ hrest', beq_eq_false_iff_ne]
    rintro rfl
    cases single <;> contradiction
  rw [← hrest'] at hscan
  have hempty : ({ Gap.empty with afterBreak := false } : Gap) = Gap.empty := rfl
  conv =>
    lhs
    unfold quoted
  simp only [hcolumn, hatEnd, hpiece, hquote, Bool.false_and, Bool.false_eq_true, ↓reduceIte, bind,
    Except.bind, hempty, hscan]

inductive Quoted (single : Bool) (indent : Nat) : List Char → List Char → Prop where
  | last {cs raw : List Char} (h : Piece single cs raw) : Quoted single indent cs raw
  | spaces {word r cs raw : List Char} (h : Piece single word r) (n : Nat)
    (hcs : Quoted single indent cs raw) (hsolid : Solid (raw ++ [quote single])) :
    Quoted single indent (word ++ (Text.blanks (n + 1) ++ cs)) (r ++ (Text.blanks (n + 1) ++ raw))
  | breaks {word r bs cs raw : List Char} {b : Char} (h : Piece single word r)
    (hbs : ∀ a ∈ b :: bs, a = '\u2028' ∨ a = '\u2029') (hcs : Quoted single indent cs raw)
    (hsolid : Solid (raw ++ [quote single])) :
    Quoted single indent (word ++ (b :: bs ++ cs)) (r ++ (b :: bs ++ (Text.blanks indent ++ raw)))

theorem return_not_mem_quoted {indent : Nat} (h : Quoted single indent cs raw) : '\r' ∉ raw := by
  induction h with
  | last h => exact not_return_mem_piece h
  | spaces h n hcs hsolid ih =>
    simp only [List.mem_append, not_or]
    exact ⟨not_return_mem_piece h, return_not_mem_blanks (n + 1), ih⟩
  | breaks h hbs hcs hsolid ih =>
    simp only [List.mem_append, not_or]
    refine ⟨not_return_mem_piece h, ?_, return_not_mem_blanks indent, ih⟩
    intro hmem
    have := hbs _ hmem
    revert this
    decide

theorem quoted_of_quoted {indent : Nat} (h : Quoted single indent cs raw) (hindent : 0 < indent)
    (hrest : c.rest = raw ++ quote single :: tail) (htail : tail.head? ≠ some '\'')
    (hpos : 0 < c.mark.column) (hfuel : raw.length < fuel) :
    quoted single began fuel text c = .ok (text ++ cs, pass (raw ++ [quote single]) c) := by
  induction h generalizing text c fuel with
  | last h =>
    obtain ⟨fuel, rfl⟩ : ∃ n, fuel = n + 1 := ⟨fuel - 1, by omega⟩
    exact quoted_last h hrest htail hpos
  | @spaces word r cs raw h n hcs hsolid ih =>
    obtain ⟨fuel, rfl⟩ : ∃ n, fuel = n + 1 := ⟨fuel - 1, by omega⟩
    rw [List.append_assoc, List.append_assoc] at hrest
    have hafter := rest_pass hrest (not_return_mem_piece h)
    have hsolid' : Solid (raw ++ quote single :: tail) := solid_append_cons hsolid tail
    have hscan : Gap.empty.scan (fun _ => .ok ())
        ((Text.blanks (n + 1) ++ (raw ++ quote single :: tail)).length + 1) (pass r c) =
        .ok ({ Gap.empty with blanks := [] ++ Text.blanks (n + 1) },
          pass (Text.blanks (n + 1)) (pass r c)) := by
      apply Gap.scan_blanks hafter hsolid' _ rfl
      rw [List.length_append, length_blanks]
      omega
    have hcolumn : (pass (Text.blanks (n + 1)) (pass r c)).mark.column =
        c.mark.column + r.length + (n + 1) := by
      rw [column_pass hafter isBreak_of_mem_blanks, length_blanks]
      rw [column_pass hrest (isBreak_of_piece h)]
    have hfuel' : raw.length < fuel := by
      rw [List.length_append, List.length_append, length_blanks] at hfuel
      omega
    rw [quoted_succ h hrest rfl hpos hscan]
    rw [ih (rest_pass hafter (return_not_mem_blanks _)) (by omega) hfuel']
    simp only [Gap.fold, Gap.empty, Bool.false_eq_true, ↓reduceIte, List.nil_append, List.append_assoc,
      pass_append]
  | @breaks word r bs cs raw b h hbs hcs hsolid ih =>
    obtain ⟨fuel, rfl⟩ : ∃ n, fuel = n + 1 := ⟨fuel - 1, by omega⟩
    have hrest : c.rest = r ++ ((b :: bs) ++ (Text.blanks indent ++ (raw ++ quote single :: tail))) := by
      rw [hrest]
      simp only [List.append_assoc]
    have hafter := rest_pass hrest (not_return_mem_piece h)
    have hkept : ∀ a ∈ b :: bs, isKept a = true := by
      intro a ha
      rcases hbs a ha with rfl | rfl <;> decide
    have hreturn := not_return_mem_kept hkept
    have hmore := rest_pass hafter hreturn
    have hnext := rest_pass hmore (return_not_mem_blanks indent)
    have hscan := Gap.scan_breaks hafter hkept (solid_append_cons hsolid tail)
      (fun (_ : Cursor) (_ : _) => (rfl : Except.ok () = (.ok () : Except SyntaxError Unit)))
    have hcolumn : (pass (Text.blanks indent) (pass (b :: bs) (pass r c))).mark.column = indent := by
      rw [column_pass_breaks hafter (List.cons_ne_nil _ _) (fun a ha => isBreak_of_isKept (hkept a ha)) hreturn
        isBreak_of_mem_blanks, length_blanks]
    have hfuel' : raw.length < fuel := by
      rw [List.length_append, List.length_append, List.length_append, length_blanks] at hfuel
      omega
    -- A single line feed would be folded into a space.
    have hseparator : ¬ [b] = ['\n'] := by
      rintro hb'
      rw [List.cons.injEq] at hb'
      rcases hbs b List.mem_cons_self with h | h
      . rw [h] at hb'
        exact absurd hb'.1 (by decide)
      . rw [h] at hb'
        exact absurd hb'.1 (by decide)
    rw [quoted_succ h hrest (by simp [isBlankOrBreak, isBreak_of_isKept (hkept b List.mem_cons_self)]) hpos hscan]
    rw [ih hnext (by omega) hfuel']
    simp only [Gap.fold, hseparator, ↓reduceIte, List.singleton_append, List.append_assoc,
      pass_append]

end Loop

section Bodies

variable {indent : Nat} {cs : List Char}

theorem escape_ne_nil (a : Char) : Text.escape a ≠ [] := by
  unfold Text.escape
  split
  case h_15 =>
    show (if isPrintable a then _ else if a.toNat ≤ 0xFF then _ else if a.toNat ≤ 0xFFFF then _ else _) ≠ _
    split
    . apply List.cons_ne_nil
    . split
      . apply List.cons_ne_nil
      . split
        . apply List.cons_ne_nil
        . apply List.cons_ne_nil
  all_goals apply List.cons_ne_nil

theorem quoted_flatMap_escape (indent : Nat) (cs : List Char) :
    Quoted false indent cs (cs.flatMap Text.escape) := by
  have hpiece (word : List Char) (h : ∀ a ∈ word, a ≠ ' ') :
      Piece false word (word.flatMap Text.escape) := by
    induction word with
    | nil => exact piece_nil false
    | cons a word ih =>
      rw [List.flatMap_cons]
      apply piece_escape _ (h a List.mem_cons_self)
      exact ih (fun b hb => h b (List.mem_cons_of_mem a hb))
  have hblanks (n : Nat) : (Text.blanks n).flatMap Text.escape = Text.blanks n := by
    induction n with
    | zero => rfl
    | succ n ih =>
      rw [Text.blanks, List.replicate_succ, List.flatMap_cons]
      exact congrArg (' ' :: ·) ih
  -- A word and its spaces are taken off, and the rest of the text is shorter.
  obtain ⟨word, n, rest, hcs, hword, hrest, hn⟩ := Text.exists_word cs
  cases n with
  | zero =>
    rw [hn rfl] at hcs
    have hcs : cs = word := hcs.trans (List.append_nil word)
    rw [hcs]
    exact Quoted.last (hpiece word hword)
  | succ n =>
    have hlength : rest.length < cs.length := by
      rw [hcs, List.length_append, List.length_append, length_blanks]
      omega
    rw [hcs, List.flatMap_append, List.flatMap_append, hblanks]
    apply Quoted.spaces (hpiece word hword) n (quoted_flatMap_escape indent rest)
    cases rest with
    | nil => rfl
    | cons a rest =>
      have ha : a ≠ ' ' := by
        simpa using hrest
      have hsolid := (piece_escape (piece_nil false) ha).solid
      rw [List.flatMap_cons]
      cases hescape : Text.escape a with
      | nil => exact absurd hescape (escape_ne_nil a)
      | cons b bs =>
        apply hsolid
        rw [hescape]
        exact List.mem_cons_self
termination_by cs.length

theorem flatMap_double (h : '\'' ∉ cs) : cs.flatMap double = cs := by
  induction cs with
  | nil => rfl
  | cons a cs ih =>
    rw [List.mem_cons, not_or] at h
    have ha : (a == '\'') = false := by
      rw [beq_eq_false_iff_ne]
      exact fun ha => h.1 ha.symm
    rw [List.flatMap_cons, ih h.2, double, ha]
    rfl

theorem singleQuotedBody_of_not_isBreak {word : List Char} (h : ∀ a ∈ word, isBreak a = false) :
    Text.singleQuotedBody indent false (word ++ cs) =
      word.flatMap double ++ Text.singleQuotedBody indent false cs := by
  induction word with
  | nil => rfl
  | cons a word ih =>
    have ha := h a List.mem_cons_self
    have ih := ih (fun b hb => h b (List.mem_cons_of_mem a hb))
    rw [List.cons_append, Text.singleQuotedBody, ha, List.flatMap_cons, List.append_assoc, ih]
    simp [double]

theorem singleQuotedBody_of_isBreak {b : Char} {bs : List Char} (h : ∀ a ∈ b :: bs, isBreak a = true)
    (afterBreak : Bool) :
    Text.singleQuotedBody indent afterBreak (b :: bs ++ cs) =
      b :: bs ++ Text.singleQuotedBody indent true cs := by
  induction bs generalizing b afterBreak with
  | nil =>
    rw [List.cons_append, Text.singleQuotedBody, if_pos (h b List.mem_cons_self)]
    rfl
  | cons b' bs ih =>
    have ih := @ih b' (fun a ha => h a (List.mem_cons_of_mem b ha)) true
    rw [List.cons_append, Text.singleQuotedBody, if_pos (h b List.mem_cons_self), ih]
    rfl

theorem singleQuotedBody_of_solid (h : Solid cs) :
    Text.singleQuotedBody indent true cs =
      Text.blanks indent ++ Text.singleQuotedBody indent false cs := by
  cases cs with
  | nil => exact (List.append_nil _).symm
  | cons a cs =>
    have ha : isBreak a = false := isBreak_of_not_isBlankOrBreak h
    rw [Text.singleQuotedBody, Text.singleQuotedBody, ha]
    simp

theorem solid_singleQuotedBody (h : Solid cs) :
    Solid (Text.singleQuotedBody indent false cs ++ [quote true]) := by
  cases cs with
  | nil => rfl
  | cons a cs =>
    have ha : isBlankOrBreak a = false := h
    rw [Text.singleQuotedBody, isBreak_of_not_isBlankOrBreak ha]
    by_cases hquote : a = '\''
    . subst hquote
      rfl
    . have hquote' : (a == '\'') = false := by
        rw [beq_eq_false_iff_ne]
        exact hquote
      rw [hquote']
      exact ha

structure Calm (cs : List Char) : Prop where
  printable : ∀ a ∈ cs, isPrintable a = true
  feed : '\n' ∉ cs
  beforeBreak : Text.hasNeighbours (fun a b => a == ' ' && isBreak b) cs = false
  afterBreak : Text.hasNeighbours (fun a b => isBreak a && b == ' ') cs = false

theorem calm_append {as bs : List Char} (h : Calm (as ++ bs)) : Calm bs where
  printable a ha := h.printable a (List.mem_append_right as ha)
  feed ha := h.feed (List.mem_append_right as ha)
  beforeBreak := Text.hasNeighbours_append h.beforeBreak
  afterBreak := Text.hasNeighbours_append h.afterBreak

theorem eq_of_calm (h : Calm cs) {a : Char} (ha : a ∈ cs) (hblank : isBlankOrBreak a = true) :
    a = ' ' ∨ a = '\u2028' ∨ a = '\u2029' := by
  rcases eq_of_isPrintable (h.printable a ha) hblank with rfl | rfl | hseparator
  . exact .inl rfl
  . exact absurd ha h.feed
  . exact .inr hseparator

theorem isBreak_eq_of_calm {as bs : List Char} {a b : Char} (h : Calm (as ++ a :: b :: bs))
    (ha : isBlankOrBreak a = true) (hb : isBlankOrBreak b = true) : isBreak a = isBreak b := by
  have hbefore := Text.of_hasNeighbours_append h.beforeBreak
  have hafter := Text.of_hasNeighbours_append h.afterBreak
  rcases eq_of_calm h (by simp) hb with rfl | hb
  . rcases eq_of_calm h (by simp) ha with rfl | rfl | rfl
    . rfl
    . exact absurd hafter (by decide)
    . exact absurd hafter (by decide)
  . have hbreak : isBreak b = true := by
      rcases hb with rfl | rfl <;> decide
    rw [hbreak, Bool.and_true] at hbefore
    rcases eq_of_calm h (by simp) ha with rfl | rfl | rfl
    . cases hbefore
    . exact hbreak.symm
    . exact hbreak.symm

theorem isBreak_eq_of_gap {as bs gap : List Char} {b : Char} (h : Calm (as ++ (b :: gap ++ bs)))
    (hgap : ∀ a ∈ b :: gap, isBlankOrBreak a = true) : ∀ a ∈ b :: gap, isBreak a = isBreak b := by
  induction gap generalizing as b with
  | nil =>
    intro a ha
    rw [List.mem_singleton] at ha
    rw [ha]
  | cons c gap ih =>
    have hgap' : ∀ a ∈ c :: gap, isBlankOrBreak a = true :=
      fun a ha => hgap a (List.mem_cons_of_mem b ha)
    have hsame : isBreak b = isBreak c :=
      isBreak_eq_of_calm h (hgap b List.mem_cons_self) (hgap' c List.mem_cons_self)
    have hcalm : Calm (as ++ [b] ++ (c :: gap ++ bs)) := by
      rw [List.append_assoc]
      exact h
    intro a ha
    rcases List.mem_cons.mp ha with rfl | ha
    . rfl
    . rw [hsame]
      exact ih hcalm hgap' a ha

theorem exists_gap (h : Calm cs) (hcs : ¬ ∀ a ∈ cs, isBlankOrBreak a = false) :
    ∃ word gap rest, cs = word ++ (gap ++ rest) ∧ (∀ a ∈ word, isBlankOrBreak a = false) ∧
      Solid rest ∧ gap ≠ [] ∧
      ((∀ a ∈ gap, a = ' ') ∨ ∀ a ∈ gap, a = '\u2028' ∨ a = '\u2029') := by
  obtain ⟨word, tail, rfl, hword, htail⟩ := Text.exists_span (!isBlankOrBreak ·) cs
  obtain ⟨gap, rest, rfl, hgap, hrest⟩ := Text.exists_span isBlankOrBreak tail
  have hword : ∀ a ∈ word, isBlankOrBreak a = false := by
    intro a ha
    simpa using hword a ha
  have hsolid : Solid rest := by
    cases rest with
    | nil => rfl
    | cons a rest => exact hrest a rfl
  cases gap with
  | nil =>
    -- Without a gap the text would be a single word.
    cases rest with
    | nil =>
      rw [List.append_nil, List.append_nil] at hcs
      exact absurd hword hcs
    | cons a rest =>
      have ha := htail a rfl
      rw [hrest a rfl] at ha
      cases ha
  | cons b gap =>
    refine ⟨word, b :: gap, rest, rfl, hword, hsolid, List.cons_ne_nil _ _, ?_⟩
    have hsort := isBreak_eq_of_gap h hgap
    have hmem (a : Char) (ha : a ∈ b :: gap) : a = ' ' ∨ a = '\u2028' ∨ a = '\u2029' := by
      apply eq_of_calm h _ (hgap a ha)
      exact List.mem_append_right _ (List.mem_append_left _ ha)
    cases hb : isBreak b with
    | true =>
      right
      intro a ha
      have hbreak := (hsort a ha).trans hb
      rcases hmem a ha with rfl | hseparator
      . exact absurd hbreak (by decide)
      . exact hseparator
    | false =>
      left
      intro a ha
      have hbreak := (hsort a ha).trans hb
      rcases hmem a ha with rfl | rfl | rfl
      . rfl
      . exact absurd hbreak (by decide)
      . exact absurd hbreak (by decide)

theorem quoted_singleQuotedBody (indent : Nat) (cs : List Char) (h : Calm cs) :
    Quoted true indent cs (Text.singleQuotedBody indent false cs) := by
  -- Unless it is a single word, a word and its gap are taken off, and the rest is shorter.
  by_cases hcs : ∀ a ∈ cs, isBlankOrBreak a = false
  . have hbreak : ∀ a ∈ cs, isBreak a = false :=
      fun a ha => isBreak_of_not_isBlankOrBreak (hcs a ha)
    have hbody := @singleQuotedBody_of_not_isBreak indent [] cs hbreak
    rw [List.append_nil] at hbody
    have hnil : Text.singleQuotedBody indent false [] = [] := rfl
    rw [hbody, hnil, List.append_nil]
    exact Quoted.last (piece_double hcs)
  . obtain ⟨word, gap, rest, rfl, hword, hrest, hne, hgap⟩ := exists_gap h hcs
    have hbreak : ∀ a ∈ word, isBreak a = false :=
      fun a ha => isBreak_of_not_isBlankOrBreak (hword a ha)
    have hlength : rest.length < (word ++ (gap ++ rest)).length := by
      have := List.length_pos_iff.mpr hne
      rw [List.length_append, List.length_append]
      omega
    have hfollowing := quoted_singleQuotedBody indent rest (calm_append (calm_append h))
    rw [singleQuotedBody_of_not_isBreak hbreak]
    cases gap with
    | nil => contradiction
    | cons b gap =>
      rcases hgap with hspaces | hbreaks
      . have hgap : b :: gap = Text.blanks (gap.length + 1) :=
          List.eq_replicate_iff.mpr ⟨List.length_cons, hspaces⟩
        have hdouble : (Text.blanks (gap.length + 1)).flatMap double = Text.blanks (gap.length + 1) :=
          flatMap_double (fun hquote => absurd (eq_of_mem_blanks _ hquote) (by decide))
        rw [hgap, singleQuotedBody_of_not_isBreak isBreak_of_mem_blanks, hdouble]
        exact Quoted.spaces (piece_double hword) _ hfollowing (solid_singleQuotedBody hrest)
      . rw [singleQuotedBody_of_isBreak _ false, singleQuotedBody_of_solid hrest]
        . exact Quoted.breaks (piece_double hword) hbreaks hfollowing (solid_singleQuotedBody hrest)
        . intro a ha
          rcases hbreaks a ha with rfl | rfl <;> decide
termination_by cs.length

end Bodies

end Scan

end ClusterRegistration.Yaml
