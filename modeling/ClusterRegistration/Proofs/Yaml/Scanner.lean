import ClusterRegistration.Proofs.Yaml.Cursor
import ClusterRegistration.Yaml.Token.Scanner

/-!
This module contains the places between two tokens at which a reader of YAML may stand, and how it
goes on from one to the next.
-/

namespace ClusterRegistration.Yaml

open Cursor

def Firm (cs : List Char) : Prop :=
  (cs.head?.map (fun a => isBlankOrBreak a || a == '#' || a == byteOrderMark)).getD false = false

theorem solid_of_firm {cs : List Char} (h : Firm cs) : Solid cs := by
  cases cs with
  | nil => rfl
  | cons a cs =>
    have h : (isBlankOrBreak a || a == '#' || a == byteOrderMark) = false := h
    rw [Bool.or_eq_false_iff, Bool.or_eq_false_iff] at h
    exact h.1.1

namespace Scanner

def kinds (s : Scanner) : List TokenKind :=
  s.tokens.toList.map (·.kind)

@[simp]
theorem kinds_push (s : Scanner) (kind : TokenKind) (start stop : Mark) :
    (s.push kind start stop).kinds = s.kinds ++ [kind] := by
  simp [kinds, push]

theorem isDone_push (s : Scanner) {kind : TokenKind} (h : kind ≠ .streamEnd) (start stop : Mark) :
    (s.push kind start stop).isDone = false := by
  unfold isDone push
  simp [h]

theorem kinds_pushIndicator (s : Scanner) (kind : TokenKind) (n : Nat) :
    (s.pushIndicator kind n).kinds = s.kinds ++ [kind] :=
  kinds_push s kind _ _

theorem isDone_pushIndicator (s : Scanner) {kind : TokenKind} (h : kind ≠ .streamEnd) (n : Nat) :
    (s.pushIndicator kind n).isDone = false :=
  isDone_push s h _ _

structure At (s : Scanner) (allowed : Bool) (rest : List Char) (column : Nat) (ks : List TokenKind)
    (indent : Int) (outer : List Int) : Prop where
  rest : s.cursor.rest = rest
  column : s.cursor.mark.column = column
  kinds : s.kinds = ks
  indent : s.indent = indent
  outer : s.outer = outer
  allowed : s.keyAllowed = allowed
  blockKey : s.blockKey = none
  flowKeys : s.flowKeys = []
  goesOn : s.isDone = false

def Loose (s : Scanner) : Prop :=
  ∀ k, s.blockKey = some k → k.required = false ∧ k.mark.line ≤ s.cursor.mark.line

structure Past (s : Scanner) (flowKeys : List (Option PossibleKey)) (rest : List Char)
    (ks : List TokenKind) (indent : Int) (outer : List Int) : Prop where
  rest : s.cursor.rest = rest
  kinds : s.kinds = ks
  indent : s.indent = indent
  outer : s.outer = outer
  loose : s.Loose
  flowKeys : s.flowKeys = flowKeys
  goesOn : s.isDone = false

def Ends (s : Scanner) (ks : List TokenKind) : Prop :=
  ∀ n, s.cursor.rest.length < n →
    ∃ ts, s.run (n + 1) = (ts, none) ∧ ts.map (·.kind) = ks

def Reads (s s' : Scanner) : Prop :=
  ∀ ks, s'.Ends ks → s.Ends ks

theorem reads_trans {s s' s'' : Scanner} (h : s.Reads s') (h' : s'.Reads s'') : s.Reads s'' :=
  fun ks hks => h ks (h' ks hks)

theorem reads_of_next {s s' s'' : Scanner} (hdone : s.isDone = false) (h : s.next = .ok s')
    (h' : s'.dropStaleKeys = .ok s'') (hless : s''.cursor.rest.length < s.cursor.rest.length) :
    s.Reads s'' := by
  intro ks hks n hn
  obtain ⟨n, rfl⟩ : ∃ m, n = m + 1 := ⟨n - 1, by omega⟩
  obtain ⟨ts, hts, hkinds⟩ := hks n (by omega)
  refine ⟨ts, ?_, hkinds⟩
  rw [run, hdone, h]
  simp only [bind, Except.bind, h', Bool.false_eq_true, ↓reduceIte]
  exact hts

theorem reads_of_next_eq {s s' : Scanner} (hdone : s.isDone = false) (hdone' : s'.isDone = false)
    (h : s.next = s'.next) (hle : s'.cursor.rest.length ≤ s.cursor.rest.length) : s.Reads s' := by
  intro ks hks n hn
  obtain ⟨ts, hts, hkinds⟩ := hks n (by omega)
  refine ⟨ts, ?_, hkinds⟩
  rw [run, hdone', ← h] at hts
  rw [run, hdone]
  simp only [Bool.false_eq_true, ↓reduceIte] at hts ⊢
  cases hnext : s.next >>= dropStaleKeys with
  | ok s'' =>
    rw [hnext] at hts
    exact hts
  | error e =>
    rw [hnext] at hts
    cases hts

def settle : Step := fun s =>
  s.skipBlanks.dropStaleKeys

theorem next_of_settle {s s' : Scanner} (h : s.settle = .ok s') (h' : s'.settle = .ok s') :
    s.next = s'.next := by
  unfold settle at h h'
  unfold next
  rw [h, h']

section Settle

variable {s : Scanner} {c : Cursor} {rest : List Char} {n : Nat}

theorem is_of_firm {p : Char → Bool} (hrest : c.rest = Text.blanks n ++ rest) (hspace : p ' ' = false)
    (h : (rest.head?.map p).getD false = false) : c.is p = false := by
  cases n with
  | succ n => rw [is_of_rest _ (show c.rest = ' ' :: (Text.blanks n ++ rest) from hrest), hspace]
  | zero =>
    have hrest : c.rest = rest := hrest
    cases rest with
    | nil => exact is_of_nil _ hrest
    | cons a rest =>
      rw [is_of_rest _ hrest]
      exact h

theorem head_of_firm (h : Firm rest) (p : Char → Bool)
    (hp : ∀ a, p a = true → (isBlankOrBreak a || a == '#' || a == byteOrderMark) = true) :
    (rest.head?.map p).getD false = false := by
  cases rest with
  | nil => rfl
  | cons a rest =>
    have ha : (isBlankOrBreak a || a == '#' || a == byteOrderMark) = false := h
    show p a = false
    rw [Bool.eq_false_iff]
    intro hpa
    rw [hp a hpa] at ha
    cases ha

theorem go_of_firm {fuel : Nat} {allowed : Bool} (hrest : c.rest = Text.blanks n ++ rest)
    (h : Firm rest) :
    skipBlanks.go s (fuel + 1) c allowed = (pass (Text.blanks n) c, allowed) := by
  have hmark : c.is (· == byteOrderMark) = false :=
    is_of_firm hrest (by decide) (head_of_firm h _ (by simp +contextual))
  have hskip : c.skipWhile (fun a => a == ' ' || ((s.inFlow || !allowed) && a == '\t')) =
      pass (Text.blanks n) c := by
    apply skipWhile_of_rest hrest _ _ isBreak_of_mem_blanks
    . intro a ha
      rw [eq_of_mem_blanks a ha]
      rfl
    . apply head_of_firm h
      intro a ha
      simp only [Bool.or_eq_true, Bool.and_eq_true, beq_iff_eq] at ha
      rcases ha with rfl | ⟨-, rfl⟩ <;> rfl
  have hrest' : (pass (Text.blanks n) c).rest = rest := rest_pass hrest (return_not_mem_blanks n)
  have hhash : (pass (Text.blanks n) c).is (· == '#') = false :=
    @is_of_firm _ _ 0 _ hrest' (by decide) (head_of_firm h _ (by simp +contextual))
  have hbreak : (pass (Text.blanks n) c).is isBreak = false := by
    apply @is_of_firm _ _ 0 _ hrest' (by decide)
    apply head_of_firm h
    intro a ha
    simp [isBlankOrBreak, ha]
  unfold skipBlanks.go
  simp only [hmark, hskip, hhash, hbreak, Bool.and_false, Bool.false_eq_true, ↓reduceIte]

theorem go_of_line {fuel : Nat} {allowed : Bool} (hrest : c.rest = '\n' :: (Text.blanks n ++ rest))
    (h : Firm rest) (hflow : s.flowKeys = []) :
    skipBlanks.go s (fuel + 1 + 1) c allowed = (pass ('\n' :: Text.blanks n) c, true) := by
  have hmark : c.is (· == byteOrderMark) = false := by
    rw [is_of_rest _ hrest]
    decide
  have hskip : c.skipWhile (fun a => a == ' ' || ((false || !allowed) && a == '\t')) = c := by
    have hbreak : ('\n' == ' ' || ((false || !allowed) && '\n' == '\t')) = false := by
      rw [show ('\n' == '\t') = false by decide, Bool.and_false]
      decide
    exact @skipWhile_of_rest [] _ c _ hrest (by simp) hbreak (by simp)
  have hhash : c.is (· == '#') = false := by
    rw [is_of_rest _ hrest]
    decide
  have hbreak : c.is isBreak = true := by
    rw [is_of_rest _ hrest]
    decide
  have hflow' : s.inFlow = false := by
    simp [inFlow, hflow]
  have hnext : (pass ['\n'] c).rest = Text.blanks n ++ rest := @rest_pass ['\n'] _ _ hrest (by decide)
  have hfollowing := @go_of_firm s _ rest n fuel true hnext h
  rw [pass_of_isBreak (by decide)] at hfollowing
  unfold skipBlanks.go
  simp only [hmark, hflow', hskip, hhash, hbreak, Bool.and_false, Bool.false_eq_true, ↓reduceIte,
    Bool.not_false, Bool.or_true, hfollowing]
  rfl

theorem skipBlanks_of_firm (hrest : s.cursor.rest = Text.blanks n ++ rest) (h : Firm rest) :
    s.skipBlanks = { s with cursor := pass (Text.blanks n) s.cursor } := by
  unfold skipBlanks
  simp only [go_of_firm hrest h]

theorem skipBlanks_of_line (hrest : s.cursor.rest = '\n' :: (Text.blanks n ++ rest)) (h : Firm rest)
    (hflow : s.flowKeys = []) :
    s.skipBlanks = { s with cursor := pass ('\n' :: Text.blanks n) s.cursor, keyAllowed := true } := by
  have hfuel : s.cursor.rest.length + 1 = (Text.blanks n ++ rest).length + 1 + 1 := by
    rw [hrest, List.length_cons]
  unfold skipBlanks
  simp only [hfuel, go_of_line hrest h hflow]

theorem dropStaleKeys_of_dropIfStale {k : Option PossibleKey} (hflow : ∀ k ∈ s.flowKeys, k = none)
    (h : s.dropIfStale s.blockKey = .ok k) : s.dropStaleKeys = .ok { s with blockKey := k } := by
  have hkeys : s.flowKeys.mapM s.dropIfStale = .ok s.flowKeys := by
    generalize s.flowKeys = ks at hflow
    induction ks with
    | nil => rfl
    | cons k ks ih =>
      rw [List.mapM_cons, hflow k List.mem_cons_self, ih]
      . rfl
      . intro k' hk'
        exact hflow k' (List.mem_cons_of_mem k hk')
  unfold dropStaleKeys
  rw [h, hkeys]
  rfl

theorem dropStaleKeys_of_none (hkey : s.blockKey = none) (hflow : ∀ k ∈ s.flowKeys, k = none) :
    s.dropStaleKeys = .ok s := by
  rw [dropStaleKeys_of_dropIfStale hflow (by rw [hkey]; rfl), ← hkey]

theorem dropStaleKeys_of_loose (hkey : s.Loose) (hflow : ∀ k ∈ s.flowKeys, k = none) :
    ∃ k, Loose { s with blockKey := k } ∧ s.dropStaleKeys = .ok { s with blockKey := k } := by
  have hnone : Loose { s with blockKey := none } := by
    intro k hk
    cases hk
  cases hk : s.blockKey with
  | none => exact ⟨none, hnone, dropStaleKeys_of_dropIfStale hflow (by rw [hk]; rfl)⟩
  | some k =>
    cases hstale : s.isStale k with
    | true =>
      refine ⟨none, hnone, dropStaleKeys_of_dropIfStale hflow ?_⟩
      simp [hk, dropIfStale, hstale, (hkey k hk).1]
    | false =>
      have hsome : Loose { s with blockKey := some k } := by
        rw [← hk]
        exact hkey
      refine ⟨some k, hsome, dropStaleKeys_of_dropIfStale hflow ?_⟩
      simp [hk, dropIfStale, hstale]

theorem dropStaleKeys_of_later
    (hkey : ∀ k, s.blockKey = some k → k.required = false ∧ k.mark.line < s.cursor.mark.line)
    (hflow : ∀ k ∈ s.flowKeys, k = none) : s.dropStaleKeys = .ok { s with blockKey := none } := by
  apply dropStaleKeys_of_dropIfStale hflow
  cases hk : s.blockKey with
  | none => rfl
  | some k =>
    obtain ⟨hrequired, hline⟩ := hkey k hk
    have hstale : s.isStale k = true := by
      simp [isStale, hline]
    simp [dropIfStale, hstale, hrequired]

end Settle

section Places

variable {s s' : Scanner} {allowed : Bool} {rest : List Char} {column n : Nat} {ks : List TokenKind}
  {indent : Int} {outer : List Int}

theorem not_mem_of_nil {flowKeys : List (Option PossibleKey)} (h : flowKeys = []) :
    ∀ k ∈ flowKeys, k = none := by
  intro k hk
  rw [h] at hk
  cases hk

theorem settle_of_at (h : s.At allowed rest column ks indent outer) (hfirm : Firm rest) :
    s.settle = .ok s := by
  have hskip : s.skipBlanks = s := skipBlanks_of_firm (n := 0) h.rest hfirm
  unfold settle
  rw [hskip]
  exact dropStaleKeys_of_none h.blockKey (not_mem_of_nil h.flowKeys)

theorem reads_of_settle (hdone : s.isDone = false) (h : s.settle = .ok s')
    (hat : s'.At allowed rest column ks indent outer) (hfirm : Firm rest)
    (hle : rest.length ≤ s.cursor.rest.length) : s.Reads s' := by
  apply reads_of_next_eq hdone hat.goesOn (next_of_settle h (settle_of_at hat hfirm))
  rw [hat.rest]
  exact hle

theorem exists_at_of_blanks (hdone : s.isDone = false) (hflow : s.flowKeys = [])
    (hkey : s.blockKey = none) (hrest : s.cursor.rest = Text.blanks n ++ rest) (hfirm : Firm rest) :
    ∃ s', s.Reads s' ∧
      s'.At s.keyAllowed rest (s.cursor.mark.column + n) s.kinds s.indent s.outer := by
  have hrest' : (pass (Text.blanks n) s.cursor).rest = rest :=
    rest_pass hrest (return_not_mem_blanks n)
  have hcolumn : (pass (Text.blanks n) s.cursor).mark.column = s.cursor.mark.column + n := by
    rw [column_pass hrest isBreak_of_mem_blanks, length_blanks]
  have hat : At { s with cursor := pass (Text.blanks n) s.cursor } s.keyAllowed rest
      (s.cursor.mark.column + n) s.kinds s.indent s.outer :=
    ⟨hrest', hcolumn, rfl, rfl, rfl, rfl, hkey, hflow, hdone⟩
  have hsettle : s.settle = .ok { s with cursor := pass (Text.blanks n) s.cursor } := by
    unfold settle
    rw [skipBlanks_of_firm hrest hfirm]
    exact dropStaleKeys_of_none hkey (not_mem_of_nil hflow)
  refine ⟨_, reads_of_settle hdone hsettle hat hfirm ?_, hat⟩
  rw [hrest, List.length_append]
  omega

theorem exists_at_of_past (h : s.Past [] ('\n' :: (Text.blanks n ++ rest)) ks indent outer)
    (hfirm : Firm rest) : ∃ s', s.Reads s' ∧ s'.At true rest n ks indent outer := by
  have hreturn : '\r' ∉ [] ++ ['\n'] := by decide
  have hrest : s.cursor.rest = [] ++ '\n' :: (Text.blanks n ++ rest) := h.rest
  have hrest' := rest_pass_break hrest (by decide) hreturn isBreak_of_mem_blanks
  have hcolumn := column_pass_break hrest (by decide) hreturn isBreak_of_mem_blanks
  have hline := line_lt_pass_break hrest (by decide) hreturn
  rw [length_blanks] at hcolumn
  have hat : At { s with
      cursor := pass ('\n' :: Text.blanks n) s.cursor, keyAllowed := true, blockKey := none } true rest n
      ks indent outer :=
    ⟨hrest', hcolumn, h.kinds, h.indent, h.outer, rfl, rfl, h.flowKeys, h.goesOn⟩
  have hsettle : s.settle = .ok { s with
      cursor := pass ('\n' :: Text.blanks n) s.cursor, keyAllowed := true, blockKey := none } := by
    have hlater : ∀ k, s.blockKey = some k →
        k.required = false ∧ k.mark.line < (pass ('\n' :: Text.blanks n) s.cursor).mark.line := by
      intro k hk
      obtain ⟨hrequired, hle⟩ := h.loose k hk
      exact ⟨hrequired, Nat.lt_of_le_of_lt hle hline⟩
    unfold settle
    rw [skipBlanks_of_line h.rest hfirm h.flowKeys]
    exact @dropStaleKeys_of_later { s with
      cursor := pass ('\n' :: Text.blanks n) s.cursor, keyAllowed := true } hlater
      (not_mem_of_nil h.flowKeys)
  refine ⟨_, reads_of_settle h.goesOn hsettle hat hfirm ?_, hat⟩
  rw [h.rest, List.length_cons, List.length_append]
  omega

theorem exists_past_of_next {flowKeys : List (Option PossibleKey)} (hdone : s.isDone = false)
    (hnext : s.next = .ok s') (h : s'.Past flowKeys rest ks indent outer)
    (hflow : ∀ k ∈ flowKeys, k = none) (hless : rest.length < s.cursor.rest.length) :
    ∃ s'', s.Reads s'' ∧ s''.Past flowKeys rest ks indent outer := by
  rw [← h.flowKeys] at hflow
  obtain ⟨k, hkey, hdrop⟩ := dropStaleKeys_of_loose h.loose hflow
  have hpast : Past { s' with blockKey := k } flowKeys rest ks indent outer :=
    ⟨h.rest, h.kinds, h.indent, h.outer, hkey, h.flowKeys, h.goesOn⟩
  refine ⟨_, reads_of_next hdone hnext hdrop ?_, hpast⟩
  rw [hpast.rest]
  exact hless

theorem closeBlocks_of_le {c : Int} (h : s.indent ≤ c) : s.closeBlocks c = s := by
  unfold closeBlocks
  split
  . rfl
  . cases s.outer with
    | nil => rfl
    | cons i outer => rw [closeBlocks.go, if_neg (by omega)]

theorem inFlow_of_nil (h : s.flowKeys = []) : s.inFlow = false := by
  simp [inFlow, h]

theorem inFlow_of_at (h : s.At allowed rest column ks indent outer) : s.inFlow = false :=
  inFlow_of_nil h.flowKeys

theorem column_of_at (h : s.At allowed rest column ks indent outer) : s.column = column :=
  h.column

theorem exists_at_of_end {i : Int} (h : s.At allowed rest column ks indent (i :: outer))
    (hfirm : Firm rest) (hless : column < indent) :
    ∃ s', s.Reads s' ∧ s'.At allowed rest column (ks ++ [.blockEnd]) i outer := by
  have hat : At { s.push .blockEnd s.cursor.mark s.cursor.mark with indent := i, outer := outer }
      allowed rest column (ks ++ [.blockEnd]) i outer := by
    refine ⟨h.rest, h.column, ?_, rfl, rfl, h.allowed, h.blockKey, h.flowKeys, ?_⟩
    . rw [← h.kinds]
      exact kinds_push s _ _ _
    . exact isDone_push s (by decide) _ _
  have hclose : s.closeBlocks s.column =
      ({ s.push .blockEnd s.cursor.mark s.cursor.mark with indent := i, outer := outer } :
        Scanner).closeBlocks s.column := by
    unfold closeBlocks
    rw [inFlow_of_at h, inFlow_of_at hat, h.outer]
    simp only [Bool.false_eq_true, ↓reduceIte]
    rw [closeBlocks.go, if_pos (by rw [h.indent, column_of_at h]; exact hless)]
  refine ⟨_, reads_of_next_eq h.goesOn hat.goesOn ?_ (Nat.le_refl _), hat⟩
  have hsettle := settle_of_at h hfirm
  have hsettle' := settle_of_at hat hfirm
  unfold settle at hsettle hsettle'
  unfold next
  rw [hsettle, hsettle']
  simp only [bind, Except.bind, hclose]
  rfl

def chance (s : Scanner) : Option PossibleKey :=
  if s.keyAllowed then some ⟨decide (s.indent = s.column), s.tokens.size, s.cursor.mark⟩ else none

theorem setPossibleKey_of_nil (h : s.flowKeys = []) (k : Option PossibleKey) :
    s.setPossibleKey k = { s with blockKey := k } := by
  simp [setPossibleKey, h]

theorem removeKey_of_none (hkey : s.blockKey = none) (hflow : s.flowKeys = []) :
    s.removeKey = .ok s := by
  simp [removeKey, possibleKey, hflow, hkey]

theorem removeKey_of_at (h : s.At allowed rest column ks indent outer) : s.removeKey = .ok s :=
  removeKey_of_none h.blockKey h.flowKeys

theorem saveKey_of_at (h : s.At allowed rest column ks indent outer) :
    s.saveKey = .ok { s with blockKey := s.chance } := by
  unfold saveKey chance
  rw [removeKey_of_at h, inFlow_of_at h]
  simp only [bind, Except.bind, pure, Except.pure, setPossibleKey_of_nil h.flowKeys, Bool.not_false,
    Bool.true_and]
  split
  . rfl
  . rw [← h.blockKey]

theorem required_of_chance (h : s.At allowed rest column ks indent outer) (hless : indent < column) :
    ∀ k, s.chance = some k → k.required = false ∧ k.mark = s.cursor.mark := by
  intro k hk
  unfold chance at hk
  split at hk
  . cases hk
    rw [h.indent, column_of_at h]
    exact ⟨decide_eq_false (Int.ne_of_lt hless), rfl⟩
  . cases hk

end Places

end Scanner

end ClusterRegistration.Yaml
