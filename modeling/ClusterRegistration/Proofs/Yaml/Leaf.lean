import ClusterRegistration.Proofs.Yaml.Block
import ClusterRegistration.Proofs.Yaml.Plain
import ClusterRegistration.Proofs.Yaml.Quoted
import ClusterRegistration.Proofs.Yaml.Scanner

namespace ClusterRegistration.Yaml

open Cursor

namespace Scanner

variable {s : Scanner} {allowed : Bool} {rest : List Char} {column m : Nat} {ks : List TokenKind}
  {indent : Nat} {outer : List Int}

section Next

variable {a : Char} {as : List Char} {i : Int}

theorem settle_closeBlocks_of_at (h : s.At allowed rest column ks i outer) (hfirm : Firm rest)
    (hle : i ≤ column) :
    s.skipBlanks.dropStaleKeys = .ok s ∧ s.closeBlocks s.column = s := by
  refine ⟨settle_of_at h hfirm, closeBlocks_of_le ?_⟩
  rw [h.indent, column_of_at h]
  exact hle

structure Ordinary (a : Char) (as : List Char) : Prop where
  solid : isBlankOrBreak a = false
  unmarked : a ≠ byteOrderMark
  indicator : Text.isIndicator a = false
  mark : ((a == '?' || a == ':' || a == '-') && endsWord as) = false

theorem startsPlain_of_ordinary (h : Ordinary a as) : startsPlain false (a :: as) = true := by
  have hindicator := h.indicator
  have hmark := h.mark
  simp only [Text.isIndicator, decide_eq_false_iff_not, List.mem_cons, not_or] at hindicator
  unfold startsPlain
  by_cases hdash : a = '-'
  . subst hdash
    have hends : endsWord as = false := hmark
    have hblank : (as.head?.map isBlank).getD false = false := by
      cases as with
      | nil => rfl
      | cons b as =>
        have hb : isBlankOrBreak b = false := hends
        rw [isBlankOrBreak, Bool.or_eq_false_iff] at hb
        exact hb.1
    simp [hblank]
  . by_cases hother : a = '?' ∨ a = ':'
    . have hends : endsWord as = false := by
        rcases hother with rfl | rfl <;> exact hmark
      rcases hother with rfl | rfl <;> simp [hends]
    . rw [not_or] at hother
      simp [h.solid, hdash, hother, hindicator]

theorem next_of_ordinary (h : s.At allowed (a :: as) column ks i outer) (hle : i ≤ column)
    (hfront : Ordinary a as) (hline : 0 < column ∨ isDocumentIndicator (a :: as) = false) :
    s.next = s.scanPlain := by
  have hindicator := hfront.indicator
  simp only [Text.isIndicator, decide_eq_false_iff_not, List.mem_cons, not_or] at hindicator
  have hfirm : Firm (a :: as) := by
    show (isBlankOrBreak a || a == '#' || a == byteOrderMark) = false
    simp [hfront.solid, hfront.unmarked, hindicator]
  have hmark : ∀ b, b = '?' ∨ b = ':' ∨ b = '-' → a = b → endsWord as = false := by
    rintro b (rfl | rfl | rfl) rfl <;> exact hfront.mark
  obtain ⟨hsettle, hclose⟩ := settle_closeBlocks_of_at h hfirm hle
  have hdocument : (decide (s.column = 0) && isDocumentIndicator (a :: as)) = false := by
    rw [column_of_at h, Bool.and_eq_false_iff, decide_eq_false_iff_not]
    exact hline.imp_left Nat.ne_of_gt
  unfold next
  rw [hsettle]
  have hdash : (a == '-' && endsWord as) = false := by
    rw [Bool.and_eq_false_imp, beq_iff_eq]
    exact hmark '-' (by simp)
  have hquestion : (a == '?' && endsWord as) = false := by
    rw [Bool.and_eq_false_imp, beq_iff_eq]
    exact hmark '?' (by simp)
  have hcolon : (a == ':' && endsWord as) = false := by
    rw [Bool.and_eq_false_imp, beq_iff_eq]
    exact hmark ':' (by simp)
  have hstart : (decide (s.column = 0) && a == '-' && isDocumentIndicator (a :: as)) = false := by
    rw [Bool.and_right_comm, hdocument, Bool.false_and]
  have hend : (decide (s.column = 0) && a == '.' && isDocumentIndicator (a :: as)) = false := by
    rw [Bool.and_right_comm, hdocument, Bool.false_and]
  simp only [bind, Except.bind, hclose, h.rest, inFlow_of_at h, startsPlain_of_ordinary hfront,
    hdash, hquestion, hcolon, hstart, hend, Bool.false_or]
  simp [hindicator]

theorem next_of_quote (single : Bool)
    (h : s.At allowed (Scan.quote single :: as) column ks i outer) (hle : i ≤ column) :
    s.next = s.scanQuoted single := by
  have hfirm : Firm (Scan.quote single :: as) := by
    cases single <;> rfl
  obtain ⟨hsettle, hclose⟩ := settle_closeBlocks_of_at h hfirm hle
  unfold next
  rw [hsettle]
  simp only [bind, Except.bind, hclose, h.rest, inFlow_of_at h]
  cases single <;> simp [Scan.quote]

theorem next_of_bar (h : s.At allowed ('|' :: as) column ks i outer) (hle : i ≤ column) :
    s.next = s.scanBlockScalar true := by
  obtain ⟨hsettle, hclose⟩ := settle_closeBlocks_of_at h rfl hle
  unfold next
  rw [hsettle]
  simp only [bind, Except.bind, hclose, h.rest, inFlow_of_at h]
  simp

end Next

section Texts

variable {cs : List Char}

theorem scanPlain_of_plain {i : Int} {p : Scan.Plain} {c : Cursor}
    (h : s.At allowed rest column ks i outer)
    (hplain : Scan.plain false (s.indent + 1) s.cursor.mark (s.cursor.rest.length + 1) []
      Scan.Gap.empty s.cursor.mark s.cursor = .ok (p, c)) :
    s.scanPlain = .ok { ({ s with blockKey := s.chance } : Scanner).push
      (.scalar (String.ofList p.text) .plain) s.cursor.mark p.stop with
      cursor := c, keyAllowed := p.afterBreak } := by
  unfold scanPlain
  rw [saveKey_of_at h]
  simp only [bind, Except.bind, @inFlow_of_nil { s with blockKey := s.chance } h.flowKeys, hplain]
  rfl

theorem ordinary_of_allowsPlain {a : Char} {as : List Char} (h : Text.allowsPlain (a :: as) = true)
    (tail : List Char) : Ordinary a (as ++ '\n' :: tail) where
  solid := Text.solid_of_words (Text.words_of_allowsPlain h (List.cons_ne_nil _ _)) []
  unmarked := by
    rintro rfl
    simp only [Text.allowsPlain, Bool.and_eq_true] at h
    have := Text.isPrintable_of_isClean h.1.1.1.1.1.1 byteOrderMark List.mem_cons_self
    contradiction
  indicator := by
    simp only [Text.allowsPlain, Bool.and_eq_true, Bool.not_eq_true'] at h
    exact (Text.startsWithIndicator_cons h.1.1.1.1.2).1
  mark := by
    have hends : endsWord (as ++ '\n' :: tail) = endsWord as := by
      cases as <;> rfl
    simp only [Text.allowsPlain, Bool.and_eq_true, Bool.not_eq_true'] at h
    rw [hends]
    exact (Text.startsWithIndicator_cons h.1.1.1.1.2).2

theorem exists_at_of_later {s' : Scanner} {kind : TokenKind} {rest' : List Char}
    (h : s.At allowed rest column ks indent outer) (hnext : s.next = .ok s')
    (hdone : s'.isDone = false) (hrest : s'.cursor.rest = rest') (hcolumn : s'.cursor.mark.column = m)
    (hkinds : s'.kinds = s.kinds ++ [kind]) (hindent : s'.indent = s.indent)
    (houter : s'.outer = s.outer) (hallowed : s'.keyAllowed = true) (hflow : s'.flowKeys = s.flowKeys)
    (hkey : ∀ k, s'.blockKey = some k → k.required = false ∧ k.mark.line < s'.cursor.mark.line)
    (hless : rest'.length < rest.length) :
    ∃ s'', s.Reads s'' ∧ s''.At true rest' m (ks ++ [kind]) indent outer := by
  rw [h.flowKeys] at hflow
  have hdrop := dropStaleKeys_of_later hkey (not_mem_of_nil hflow)
  refine ⟨_, reads_of_next h.goesOn hnext hdrop ?_, hrest, hcolumn, ?_, ?_, ?_, hallowed, rfl, hflow, hdone⟩
  . rw [h.rest]
    exact Nat.lt_of_le_of_lt (Nat.le_of_eq (congrArg List.length hrest)) hless
  . exact hkinds.trans (by rw [h.kinds])
  . exact hindent.trans h.indent
  . exact houter.trans h.outer

theorem exists_at_of_plain
    (h : s.At allowed (cs ++ '\n' :: (Text.blanks m ++ rest)) column ks indent outer)
    (hallows : Text.allowsPlain cs = true) (hne : cs ≠ []) (hfirm : Firm rest)
    (hcolumn : indent < column) (hm : m ≤ indent) :
    ∃ s', s.Reads s' ∧
      s'.At true rest m (ks ++ [.scalar (String.ofList cs) .plain]) indent outer := by
  have hwords := Text.words_of_allowsPlain hallows hne
  have hbreak : ∀ a ∈ cs, isBreak a = false := by
    intro a ha
    simp only [Text.allowsPlain, Bool.and_eq_true, Bool.not_eq_true', List.any_eq_false] at hallows
    rw [Bool.eq_false_iff]
    exact hallows.1.1.1.1.1.2 a ha
  have hreturn : '\r' ∉ cs ++ ['\n'] := by
    intro hmem
    rcases List.mem_append.mp hmem with hmem | hmem
    . have := hbreak _ hmem
      contradiction
    . revert hmem
      decide
  have hnext : s.next = s.scanPlain := by
    cases cs with
    | nil => contradiction
    | cons a as =>
      exact next_of_ordinary h (by omega) (ordinary_of_allowsPlain hallows _) (.inl (by omega))
  have hrest := h.rest
  have hafter := rest_pass_break hrest (by decide) hreturn isBreak_of_mem_blanks
  have hcolumn' := column_pass_break hrest (by decide) hreturn isBreak_of_mem_blanks
  have hline := line_lt_pass_break hrest (by decide) hreturn
  obtain ⟨stop, hplain⟩ := @Scan.plain_of_words s.cursor s.cursor.mark cs rest [] m (s.indent + 1)
    (s.cursor.rest.length + 1) Scan.Gap.empty s.cursor.mark hwords hrest (solid_of_firm hfirm)
    (by rw [h.indent]; omega) (by rw [h.indent, h.column]; omega) (by
      rw [hrest, List.length_append]
      omega)
  have hchance := required_of_chance h (by omega)
  apply exists_at_of_later h (hnext.trans (scanPlain_of_plain h hplain)) (isDone_push _ (by simp) _ _)
    hafter _ (kinds_push _ _ _ _) rfl rfl rfl rfl
  . intro k hk
    obtain ⟨hrequired, hmark⟩ := hchance k hk
    refine ⟨hrequired, ?_⟩
    rw [hmark]
    exact hline
  . rw [List.length_append, List.length_cons, List.length_append]
    omega
  . show (pass (cs ++ '\n' :: Text.blanks m) s.cursor).mark.column = m
    rw [hcolumn', length_blanks]

theorem exists_at_of_line_end {s' : Scanner} {kind : TokenKind}
    (h : s.At allowed (a :: as) column ks indent outer) (hnext : s.next = .ok s')
    (h' : s'.Past [] ('\n' :: (Text.blanks m ++ rest)) (ks ++ [kind]) indent outer) (hfirm : Firm rest)
    (hless : ('\n' :: (Text.blanks m ++ rest)).length ≤ as.length) :
    ∃ s'', s.Reads s'' ∧ s''.At true rest m (ks ++ [kind]) indent outer := by
  obtain ⟨s'', hreads, hpast⟩ := exists_past_of_next h.goesOn hnext h' (by simp) (by
    rw [h.rest, @List.length_cons _ a]
    omega)
  obtain ⟨s₁, hreads', hat⟩ := exists_at_of_past hpast hfirm
  exact ⟨s₁, reads_trans hreads hreads', hat⟩

theorem loose_of_chance {s' : Scanner} (h : s.At allowed rest column ks indent outer)
    (hless : indent < column) (hkey : s'.blockKey = s.chance)
    (hline : s.cursor.mark.line ≤ s'.cursor.mark.line) : s'.Loose := by
  intro k hk
  rw [hkey] at hk
  obtain ⟨hrequired, hmark⟩ := required_of_chance h (by omega) k hk
  refine ⟨hrequired, ?_⟩
  rw [hmark]
  exact hline

theorem exists_at_of_quoted {raw : List Char} (single : Bool)
    (h : s.At allowed (Scan.quote single :: (raw ++ Scan.quote single :: '\n' :: (Text.blanks m ++ rest)))
      column ks indent outer)
    (hquoted : Scan.Quoted single (indent + 2) cs raw) (hfirm : Firm rest)
    (hcolumn : indent < column) :
    ∃ s', s.Reads s' ∧
      s'.At true rest m (ks ++ [.scalar (String.ofList cs) .quoted]) indent outer := by
  have hrest := rest_skip h.rest
  have hpos : 0 < s.cursor.skip.mark.column := by
    rw [mark_skip h.rest]
    apply Nat.succ_pos
  have hread : Scan.quoted single s.cursor.mark (s.cursor.skip.rest.length + 1) [] s.cursor.skip =
      .ok ([] ++ cs, pass (raw ++ [Scan.quote single]) s.cursor.skip) := by
    apply Scan.quoted_of_quoted hquoted (by omega) hrest (by simp) hpos
    rw [hrest, List.length_append]
    omega
  have hreturn : '\r' ∉ raw ++ [Scan.quote single] := by
    rw [List.mem_append, not_or]
    refine ⟨Scan.return_not_mem_quoted hquoted, ?_⟩
    cases single <;> decide
  have hafter : (pass (raw ++ [Scan.quote single]) s.cursor.skip).rest =
      '\n' :: (Text.blanks m ++ rest) := by
    apply rest_pass _ hreturn
    rw [hrest, List.append_assoc, List.singleton_append]
  have hline : s.cursor.mark.line ≤ (pass (raw ++ [Scan.quote single]) s.cursor.skip).mark.line := by
    apply Nat.le_trans _ (line_le_pass _ _)
    apply Nat.le_of_eq
    rw [mark_skip h.rest]
  have hscan : s.scanQuoted single = .ok { ({ s with blockKey := s.chance } : Scanner).push
      (.scalar (String.ofList cs) .quoted) s.cursor.mark
      (pass (raw ++ [Scan.quote single]) s.cursor.skip).mark with
      cursor := pass (raw ++ [Scan.quote single]) s.cursor.skip, keyAllowed := false } := by
    unfold scanQuoted
    rw [saveKey_of_at h]
    simp only [bind, Except.bind, hread, List.nil_append]
    rfl
  apply exists_at_of_line_end h ((next_of_quote single h (by omega)).trans hscan) _ hfirm
  . rw [List.length_append, @List.length_cons _ (Scan.quote single)]
    omega
  . refine ⟨hafter, ?_, h.indent, h.outer, loose_of_chance h hcolumn rfl hline, h.flowKeys,
      isDone_push _ (by simp) _ _⟩
    rw [← h.kinds]
    exact kinds_push _ _ _ _

theorem exists_at_of_literal
    (h : s.At allowed (Text.literal (indent + 2) cs ++ (Text.blanks m ++ rest)) column ks indent outer)
    (hallows : Text.allowsLiteral cs = true) (hne : cs ≠ []) (hfirm : Firm rest)
    (hcolumn : indent < column) (hm : m ≤ indent) :
    ∃ s', s.Reads s' ∧
      s'.At true rest m (ks ++ [.scalar (String.ofList cs) .literal]) indent outer := by
  have hrest := h.rest
  obtain ⟨as, b, hliteral, hb⟩ := Text.exists_break_literal (indent + 2) cs
  obtain ⟨stop, hread⟩ := Scan.block_of_allowsLiteral hallows hne hrest (solid_of_firm hfirm)
    (show m < indent + 2 by omega)
  have hreturn : '\r' ∉ as ++ [b] := by
    rw [← hliteral]
    intro hmem
    rcases Text.mem_literal hmem with hmem | hmem
    . have := Text.isKept_of_allowsLiteral hallows _ hmem (by decide)
      contradiction
    . revert hmem
      decide
  rw [hliteral, List.append_assoc, List.singleton_append] at hrest hread
  rw [← h.indent] at hread
  have hafter := rest_pass_break hrest hb hreturn isBreak_of_mem_blanks
  have hcolumn' := column_pass_break hrest hb hreturn isBreak_of_mem_blanks
  have hscan : s.scanBlockScalar true = .ok { s.push
      (.scalar (String.ofList cs) .literal) s.cursor.mark stop with
      cursor := pass (as ++ b :: Text.blanks m) s.cursor, keyAllowed := true } := by
    unfold scanBlockScalar
    rw [removeKey_of_at h]
    simp only [bind, Except.bind, hread]
    rfl
  have hnext : s.next = s.scanBlockScalar true := next_of_bar h (by omega)
  apply exists_at_of_later h (hnext.trans hscan) (isDone_push _ (by simp) _ _)
    hafter _ (kinds_push _ _ _ _) rfl rfl rfl rfl
  . intro k hk
    have hk : s.blockKey = some k := hk
    rw [h.blockKey] at hk
    cases hk
  . rw [hliteral, List.length_append, List.length_append, List.length_append, List.length_singleton]
    omega
  . show (pass (as ++ b :: Text.blanks m) s.cursor).mark.column = m
    rw [hcolumn', length_blanks]

end Texts

section Empty

def bracket (sequence : Bool) : Char × Char :=
  if sequence then ('[', ']') else ('\x7b', '\x7d')

def emptyKinds (sequence : Bool) : TokenKind × TokenKind :=
  if sequence then (.flowSequenceStart, .flowSequenceEnd) else (.flowMappingStart, .flowMappingEnd)

theorem next_of_opening (sequence : Bool) (h : s.At allowed ((bracket sequence).1 :: as) column ks indent outer)
    (hle : indent ≤ column) :
    s.next = .ok (({ s with blockKey := s.chance, flowKeys := [none], keyAllowed := true } :
      Scanner).pushIndicator (emptyKinds sequence).1 1) := by
  have hfirm : Firm ((bracket sequence).1 :: as) := by
    cases sequence <;> rfl
  obtain ⟨hsettle, hclose⟩ := settle_closeBlocks_of_at h hfirm (by omega)
  have hstart (kind : TokenKind) : s.scanFlowStart kind =
      .ok (({ s with blockKey := s.chance, flowKeys := [none], keyAllowed := true } :
        Scanner).pushIndicator kind 1) := by
    unfold scanFlowStart
    rw [saveKey_of_at h]
    simp only [bind, Except.bind, h.flowKeys]
    rfl
  unfold next
  rw [hsettle]
  simp only [bind, Except.bind, hclose, h.rest]
  cases sequence <;> simp [bracket, emptyKinds, hstart]

theorem emptyKinds_ne (sequence : Bool) :
    (emptyKinds sequence).1 ≠ .streamEnd ∧ (emptyKinds sequence).2 ≠ .streamEnd := by
  cases sequence <;> decide

theorem next_of_closing (sequence : Bool)
    (h : s.Past [none] ((bracket sequence).2 :: as) ks indent outer) :
    ∃ s', s.next = .ok s' ∧ s'.Past [] as (ks ++ [(emptyKinds sequence).2]) indent outer := by
  have hfirm : Firm ((bracket sequence).2 :: as) := by
    cases sequence <;> rfl
  have hskip : s.skipBlanks = s := skipBlanks_of_firm (n := 0) h.rest hfirm
  obtain ⟨k, hkey, hdrop⟩ := dropStaleKeys_of_loose h.loose (by simp [h.flowKeys])
  have hclose (c : Int) : ({ s with blockKey := k } : Scanner).closeBlocks c = { s with blockKey := k } := by
    simp [closeBlocks, inFlow, h.flowKeys]
  have hend (kind : TokenKind) : ({ s with blockKey := k } : Scanner).scanFlowEnd kind =
      .ok (({ s with blockKey := k, flowKeys := [], keyAllowed := false } :
        Scanner).pushIndicator kind 1) := by
    simp [scanFlowEnd, removeKey, possibleKey, h.flowKeys, bind, Except.bind]
    rfl
  have hnext : s.next = .ok (({ s with blockKey := k, flowKeys := [], keyAllowed := false } :
      Scanner).pushIndicator (emptyKinds sequence).2 1) := by
    unfold next
    rw [hskip, hdrop]
    simp only [bind, Except.bind, hclose, h.rest]
    cases sequence <;> simp [bracket, emptyKinds, hend]
  refine ⟨_, hnext, rest_skip h.rest, ?_, h.indent, h.outer, ?_, rfl,
    isDone_pushIndicator _ (emptyKinds_ne sequence).2 1⟩
  . rw [kinds_pushIndicator, ← h.kinds]
    rfl
  . intro k' hk'
    obtain ⟨hrequired, hline⟩ := hkey k' hk'
    refine ⟨hrequired, Nat.le_trans hline ?_⟩
    exact Nat.le_of_eq (congrArg Mark.line (mark_skip h.rest)).symm

theorem exists_at_of_empty (sequence : Bool)
    (h : s.At allowed ((bracket sequence).1 :: (bracket sequence).2 :: '\n' :: (Text.blanks m ++ rest))
      column ks indent outer) (hfirm : Firm rest) (hcolumn : indent < column) :
    ∃ s', s.Reads s' ∧
      s'.At true rest m (ks ++ [(emptyKinds sequence).1] ++ [(emptyKinds sequence).2]) indent outer := by
  have hnext := next_of_opening sequence h (by omega)
  have hpast : Past (({ s with blockKey := s.chance, flowKeys := [none], keyAllowed := true } :
      Scanner).pushIndicator (emptyKinds sequence).1 1) [none]
      ((bracket sequence).2 :: '\n' :: (Text.blanks m ++ rest)) (ks ++ [(emptyKinds sequence).1])
      indent outer := by
    refine ⟨rest_skip h.rest, ?_, h.indent, h.outer, ?_, rfl,
      isDone_pushIndicator _ (emptyKinds_ne sequence).1 1⟩
    . rw [kinds_pushIndicator, ← h.kinds]
      rfl
    . apply loose_of_chance h hcolumn rfl
      exact Nat.le_of_eq (congrArg Mark.line (mark_skip h.rest)).symm
  obtain ⟨s₁, hreads₁, hpast₁⟩ := exists_past_of_next h.goesOn hnext hpast (by simp) (by
    rw [h.rest]
    simp)
  obtain ⟨s₂, hnext₂, hpast₂⟩ := next_of_closing sequence hpast₁
  obtain ⟨s₃, hreads₃, hpast₃⟩ := exists_past_of_next hpast₁.goesOn hnext₂ hpast₂ (by simp) (by
    rw [hpast₁.rest]
    simp)
  obtain ⟨s₄, hreads₄, hat⟩ := exists_at_of_past hpast₃ hfirm
  exact ⟨s₄, reads_trans hreads₁ (reads_trans hreads₃ hreads₄), hat⟩

end Empty

end Scanner

end ClusterRegistration.Yaml
