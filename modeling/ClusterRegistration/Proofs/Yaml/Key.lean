import ClusterRegistration.Proofs.Yaml.Leaf
import Mathlib.Data.List.InsertIdx

/-!
This module contains the tokens of keys. A key is recognised when its colon is met, and so are the
mapping and the block that it begins.
-/

namespace ClusterRegistration.Yaml

open Cursor

structure Key (cs : List Char) : Prop where
  head : (cs.head?.map Char.isAlpha).getD false = true
  all : ∀ a ∈ cs, a.isAlphanum = true ∨ a = '-'
  short : cs.length ≤ 1024

instance (cs : List Char) : Decidable (Key cs) :=
  decidable_of_iff ((cs.head?.map Char.isAlpha).getD false = true ∧
    cs.all (fun a => a.isAlphanum || a == '-') = true ∧ cs.length ≤ 1024)
    ⟨fun h => ⟨h.1, by simpa using h.2.1, h.2.2⟩, fun h => ⟨h.head, by simpa using h.all, h.short⟩⟩

section Characters

variable {a : Char} {cs : List Char}

structure Simple (a : Char) : Prop where
  solid : isBlankOrBreak a = false
  indicator : Text.isIndicator a = false
  colon : a ≠ ':'
  width : Cursor.width a = 1

theorem lt_of_isAlphanum (h : a.isAlphanum = true) : a.toNat < 128 := by
  have h : ((decide ('A'.val ≤ a.val ∧ a.val ≤ 'Z'.val) ||
      (decide ('a'.val ≤ a.val) && decide (a.val ≤ 'z'.val))) ||
      (decide ('0'.val ≤ a.val) && decide (a.val ≤ '9'.val))) = true := h
  simp only [Bool.or_eq_true, Bool.and_eq_true, decide_eq_true_eq, UInt32.le_iff_toNat_le] at h
  have hvalue : a.toNat = a.val.toNat := rfl
  have hupper : 'Z'.val.toNat = 90 := rfl
  have hlower : 'z'.val.toNat = 122 := rfl
  have hdigit : '9'.val.toNat = 57 := rfl
  omega

theorem simple_of_isAlphanum (h : a.isAlphanum = true) : Simple a := by
  have hall : ∀ n < 128, (Char.ofNat n).isAlphanum = true →
      isBlankOrBreak (Char.ofNat n) = false ∧ Text.isIndicator (Char.ofNat n) = false ∧
        Char.ofNat n ≠ ':' ∧ Cursor.width (Char.ofNat n) = 1 := by
    decide +kernel
  have hn := hall a.toNat (lt_of_isAlphanum h)
  rw [Char.ofNat_toNat] at hn
  obtain ⟨hsolid, hindicator, hcolon, hwidth⟩ := hn h
  exact ⟨hsolid, hindicator, hcolon, hwidth⟩

theorem simple_of_key (h : Key cs) : ∀ a ∈ cs, Simple a := by
  intro a ha
  rcases h.all a ha with ha | rfl
  . exact simple_of_isAlphanum ha
  . exact ⟨by decide, by decide, by decide, by decide⟩

theorem word_of_key (h : Key cs) : Text.Word cs where
  ne := by
    rintro rfl
    cases h.head
  solid a ha := (simple_of_key h a ha).solid
  colon := by
    intro hlast
    exact (simple_of_key h _ (List.mem_of_getLast? hlast)).colon rfl
  hash := by
    intro hhead
    have := (simple_of_key h _ (List.mem_of_mem_head? hhead)).indicator
    contradiction

end Characters

theorem insertIdx_length_append {α : Type} (as bs : List α) (a : α) :
    (as ++ bs).insertIdx as.length a = as ++ a :: bs := by
  induction as with
  | nil => rfl
  | cons b as ih => rw [List.cons_append, List.length_cons, List.insertIdx_succ_cons, ih]; rfl

namespace Scanner

variable {s : Scanner} {allowed : Bool} {rest : List Char} {column m : Nat} {ks : List TokenKind}
  {indent : Nat} {outer : List Int}

theorem kinds_insert (s : Scanner) (i : Nat) (kind : TokenKind) (mark : Mark) :
    (s.insert i kind mark).kinds = s.kinds.insertIdx i kind := by
  obtain ⟨cursor, ⟨ts⟩, indent, outer, keyAllowed, blockKey, flowKeys⟩ := s
  simp [insert, kinds, List.map_insertIdx]

theorem length_kinds (s : Scanner) : s.kinds.length = s.tokens.size := by
  simp [kinds]

theorem past_of_at {i : Int} (h : s.At allowed rest column ks i outer) : s.Past [] rest ks i outer := by
  refine ⟨h.rest, h.kinds, h.indent, h.outer, ?_, h.flowKeys, h.goesOn⟩
  intro k hk
  rw [h.blockKey] at hk
  cases hk

section Keys

variable {k tail : List Char} {i : Int}

theorem ordinary_of_key (h : Key k) (tail : List Char) :
    ∃ a as, k = a :: as ∧ Ordinary a (as ++ tail) ∧ isDocumentIndicator (k ++ tail) = false := by
  cases k with
  | nil => cases h.head
  | cons a as =>
    have ha : a.isAlpha = true := h.head
    have hsimple := simple_of_key h a List.mem_cons_self
    refine ⟨a, as, rfl, ⟨hsimple.solid, ?_, hsimple.indicator, ?_⟩, ?_⟩
    . rintro rfl
      contradiction
    . have hmark : (a == '?' || a == ':' || a == '-') = false := by
        simp only [Bool.or_eq_false_iff, beq_eq_false_iff_ne]
        refine ⟨⟨?_, ?_⟩, ?_⟩ <;> rintro rfl <;> contradiction
      rw [hmark, Bool.false_and]
    . unfold isDocumentIndicator
      split
      . next heq =>
        rw [(List.cons.inj heq).1] at ha
        contradiction
      . next heq =>
        rw [(List.cons.inj heq).1] at ha
        contradiction
      . rfl

def afterKey (s : Scanner) (k : List Char) : Scanner :=
  { ({ s with blockKey := s.chance } : Scanner).push (.scalar (String.ofList k) .plain) s.cursor.mark
      (pass k s.cursor).mark with cursor := pass k s.cursor, keyAllowed := false }

theorem isBreak_of_key (hkey : Key k) : ∀ a ∈ k, isBreak a = false :=
  Scan.isBreak_of_word (word_of_key hkey)

theorem rest_afterKey (h : s.At true (k ++ ':' :: tail) column ks i outer) (hkey : Key k) :
    (s.afterKey k).cursor.rest = ':' :: tail :=
  rest_pass h.rest (Scan.not_return_mem_word (word_of_key hkey))

theorem dropStaleKeys_afterKey (h : s.At true (k ++ ':' :: tail) column ks i outer) (hkey : Key k) :
    (s.afterKey k).dropStaleKeys = .ok (s.afterKey k) := by
  have hline := line_pass h.rest (isBreak_of_key hkey)
  have hoffset := offset_pass h.rest (isBreak_of_key hkey) (fun a ha => (simple_of_key hkey a ha).width)
  have hshort := hkey.short
  have hdrop : (s.afterKey k).dropIfStale (s.afterKey k).blockKey = .ok s.chance := by
    show (s.afterKey k).dropIfStale s.chance = .ok s.chance
    unfold chance
    rw [h.allowed, if_pos rfl]
    have hstale : (s.afterKey k).isStale ⟨decide (s.indent = s.column), s.tokens.size, s.cursor.mark⟩ =
        false := by
      unfold isStale afterKey
      simp only [hline, hoffset]
      simp
      omega
    simp [dropIfStale, hstale]
  exact dropStaleKeys_of_dropIfStale (not_mem_of_nil h.flowKeys) hdrop

theorem next_of_key (h : s.At true (k ++ ':' :: tail) column ks i outer) (hkey : Key k)
    (htail : endsWord tail = true) (hle : i ≤ column) : s.next = .ok (s.afterKey k) := by
  obtain ⟨a, as, rfl, hfront, hindicator⟩ := ordinary_of_key hkey (':' :: tail)
  have hplain : Scan.plain false (s.indent + 1) s.cursor.mark (s.cursor.rest.length + 1) []
      Scan.Gap.empty s.cursor.mark s.cursor =
      .ok (⟨a :: as, (pass (a :: as) s.cursor).mark, false⟩, pass (a :: as) s.cursor) := by
    apply Scan.plain_of_key (word_of_key hkey) h.rest htail
    rw [h.rest]
    exact hindicator
  rw [next_of_ordinary h hle hfront (.inr hindicator)]
  exact scanPlain_of_plain h hplain

theorem flowKeys_openBlock (s : Scanner) (c : Nat) (at? : Option Nat) (kind : TokenKind) (mark : Mark) :
    (s.openBlock c at? kind mark).flowKeys = s.flowKeys := by
  unfold openBlock
  split
  . cases at? <;> rfl
  . rfl

def afterColon (s : Scanner) (k : List Char) : Scanner :=
  { (((s.afterKey k).insert s.tokens.size .key s.cursor.mark).openBlock s.cursor.mark.column
      (some s.tokens.size) .blockMappingStart s.cursor.mark) with
    blockKey := none, keyAllowed := false }.pushIndicator .value 1

theorem next_of_colon (h : s.At true (k ++ ':' :: tail) column ks i outer) (hkey : Key k)
    (htail : endsWord tail = true) (hle : i ≤ column) :
    (s.afterKey k).next = .ok (s.afterColon k) := by
  have hrest := rest_afterKey h hkey
  have hfirm : Firm (':' :: tail) := rfl
  have hskip : (s.afterKey k).skipBlanks = s.afterKey k := skipBlanks_of_firm (n := 0) hrest hfirm
  have hclose : (s.afterKey k).closeBlocks (s.afterKey k).column = s.afterKey k := by
    apply closeBlocks_of_le
    have hcolumn : (s.afterKey k).column = column + k.length := by
      rw [← column_of_at h]
      exact column_pass h.rest (isBreak_of_key hkey)
    rw [hcolumn]
    have hindent : (s.afterKey k).indent = i := h.indent
    omega
  have hflow : (s.afterKey k).flowKeys = [] := h.flowKeys
  have hpossible : (s.afterKey k).possibleKey =
      some ⟨decide (s.indent = s.column), s.tokens.size, s.cursor.mark⟩ := by
    unfold possibleKey
    rw [hflow]
    show s.chance = _
    unfold chance
    rw [h.allowed, if_pos rfl]
  have hvalue : (s.afterKey k).scanValue = .ok (s.afterColon k) := by
    unfold scanValue
    rw [hpossible]
    simp only
    rw [setPossibleKey_of_nil]
    . rfl
    . rw [flowKeys_openBlock]
      exact hflow
  -- The key ends on its line and is short, so that it is still possible when its colon comes.
  unfold next
  rw [hskip, dropStaleKeys_afterKey h hkey]
  simp only [bind, Except.bind, hclose, hrest, htail]
  simp [hvalue]

theorem kinds_afterKey (s : Scanner) (k : List Char) :
    ((s.afterKey k).insert s.tokens.size .key s.cursor.mark).kinds =
      s.kinds ++ [.key, .scalar (String.ofList k) .plain] := by
  have hkinds : (s.afterKey k).kinds = s.kinds ++ [.scalar (String.ofList k) .plain] := kinds_push _ _ _ _
  rw [kinds_insert, hkinds, ← length_kinds, insertIdx_length_append]

theorem exists_at_of_key (h : s.At true (k ++ ':' :: tail) column ks i outer) (hkey : Key k)
    (htail : endsWord tail = true) (hle : i ≤ column) :
    ∃ s', s.Reads s' ∧ s'.At false tail (column + k.length + 1)
      (ks ++ (if i < column then [.blockMappingStart] else []) ++
        [.key, .scalar (String.ofList k) .plain] ++ [.value])
      column (if i < column then i :: outer else outer) := by
  have hcolumn : (s.afterKey k).cursor.mark.column = column + k.length := by
    rw [← h.column]
    exact column_pass h.rest (isBreak_of_key hkey)
  have hkinds := kinds_afterKey s k
  rw [h.kinds] at hkinds
  have hat : (s.afterColon k).At false tail (column + k.length + 1)
      (ks ++ (if i < column then [.blockMappingStart] else []) ++
        [.key, .scalar (String.ofList k) .plain] ++ [.value])
      column (if i < column then i :: outer else outer) := by
    have hflow : ((s.afterKey k).insert s.tokens.size .key s.cursor.mark).inFlow = false :=
      inFlow_of_nil h.flowKeys
    have hindent : ((s.afterKey k).insert s.tokens.size .key s.cursor.mark).indent = i := h.indent
    unfold afterColon openBlock
    rw [hflow, hindent, h.column]
    have hrest := rest_skip (rest_afterKey h hkey)
    have hmark : (s.afterKey k).cursor.skip.mark.column = column + k.length + 1 := by
      rw [mark_skip (rest_afterKey h hkey), hcolumn]
    -- The start of the block goes in front of the key, which has been read already.
    by_cases hless : i < column
    . simp only [hless, Bool.not_false, Bool.true_and, decide_true, ↓reduceIte]
      refine ⟨hrest, hmark, ?_, rfl, ?_, rfl, rfl, h.flowKeys, isDone_pushIndicator _ (by simp) 1⟩
      . rw [kinds_pushIndicator]
        have hinsert := kinds_insert ((s.afterKey k).insert s.tokens.size .key s.cursor.mark)
          s.tokens.size .blockMappingStart s.cursor.mark
        rw [hkinds, ← length_kinds, h.kinds, insertIdx_length_append] at hinsert
        rw [List.append_assoc ks, List.singleton_append, ← hinsert, ← h.kinds, length_kinds]
        rfl
      . rw [← h.outer, ← h.indent]
        rfl
    . simp only [hless, Bool.not_false, Bool.true_and, decide_false, Bool.false_eq_true, ↓reduceIte]
      refine ⟨hrest, hmark, ?_, ?_, h.outer, rfl, rfl, h.flowKeys, isDone_pushIndicator _ (by simp) 1⟩
      . rw [kinds_pushIndicator, List.append_nil, ← hkinds]
        rfl
      . exact hindent.trans (by omega)
  -- Two tokens are read, and the key is not stale in between.
  have hreads : s.Reads (s.afterKey k) := by
    apply reads_of_next h.goesOn (next_of_key h hkey htail hle) (dropStaleKeys_afterKey h hkey)
    rw [h.rest, rest_afterKey h hkey, List.length_append]
    have := List.length_pos_iff.mpr (word_of_key hkey).ne
    omega
  have hdone : (s.afterKey k).isDone = false := isDone_push _ (by simp) _ _
  have hreads' : (s.afterKey k).Reads (s.afterColon k) := by
    apply reads_of_next hdone (next_of_colon h hkey htail hle)
      (dropStaleKeys_of_none hat.blockKey (not_mem_of_nil hat.flowKeys))
    rw [hat.rest, rest_afterKey h hkey, List.length_cons]
    omega
  exact ⟨_, reads_trans hreads hreads', hat⟩

end Keys

section Entries

variable {i : Int}

theorem exists_at_of_dash (h : s.At true ('-' :: ' ' :: rest) column ks i outer) (hle : i ≤ column)
    (hfirm : Firm rest) :
    ∃ s', s.Reads s' ∧ s'.At true rest (column + 2)
      (ks ++ (if i < column then [.blockSequenceStart] else []) ++ [.blockEntry])
      column (if i < column then i :: outer else outer) := by
  obtain ⟨hsettle, hclose⟩ := settle_closeBlocks_of_at h rfl hle
  have hcolumn : s.cursor.skip.mark.column = column + 1 := by
    rw [mark_skip h.rest, h.column]
  obtain ⟨s₁, hnext, hat⟩ : ∃ s₁, s.next = .ok s₁ ∧ s₁.At true (' ' :: rest) (column + 1)
      (ks ++ (if i < column then [.blockSequenceStart] else []) ++ [.blockEntry])
      column (if i < column then i :: outer else outer) := by
    have hnext : s.next = s.scanBlockEntry := by
      unfold next
      rw [hsettle]
      simp only [bind, Except.bind, hclose, h.rest]
      simp [isDocumentIndicator, endsWord, isBlankOrBreak, isBlank]
    rw [hnext]
    unfold scanBlockEntry openBlock
    rw [inFlow_of_at h, h.allowed, h.indent, column_of_at h]
    -- A dash that lies further in begins a block. All others find the block begun.
    by_cases hless : i < column
    . simp only [hless, Bool.not_false, Bool.true_and, decide_true, ↓reduceIte, Bool.not_true,
        Bool.false_eq_true, bind, Except.bind]
      rw [@removeKey_of_none (push { s with indent := column, outer := i :: s.outer, keyAllowed := true }
        _ _ _) h.blockKey h.flowKeys]
      refine ⟨_, rfl, rest_skip h.rest, hcolumn, ?_, rfl, ?_, rfl, h.blockKey, h.flowKeys,
        isDone_pushIndicator _ (by simp) 1⟩
      . rw [kinds_pushIndicator, ← h.kinds, ← kinds_push s .blockSequenceStart s.cursor.mark s.cursor.mark]
        rfl
      . rw [← h.outer]
        rfl
    . simp only [hless, Bool.not_false, Bool.true_and, decide_false, ↓reduceIte, Bool.not_true,
        Bool.false_eq_true, bind, Except.bind]
      rw [removeKey_of_none h.blockKey h.flowKeys]
      refine ⟨_, rfl, rest_skip h.rest, hcolumn, ?_, ?_, h.outer, rfl, h.blockKey, h.flowKeys,
        isDone_pushIndicator _ (by simp) 1⟩
      . rw [kinds_pushIndicator, List.append_nil, ← h.kinds]
        rfl
      . exact h.indent.trans (by omega)
  have hdrop := dropStaleKeys_of_none hat.blockKey (not_mem_of_nil hat.flowKeys)
  have hreads := reads_of_next h.goesOn hnext hdrop (by
    rw [h.rest, hat.rest]
    simp)
  obtain ⟨s₂, hreads', hat'⟩ := @exists_at_of_blanks s₁ rest 1 hat.goesOn hat.flowKeys hat.blockKey
    hat.rest hfirm
  rw [hat.allowed, hat.column, hat.kinds, hat.indent, hat.outer] at hat'
  exact ⟨s₂, reads_trans hreads hreads', hat'⟩

theorem ends_of_at (h : s.At allowed [] 0 ks 0 [-1]) : s.Ends (ks ++ [.blockEnd] ++ [.streamEnd]) := by
  obtain ⟨hsettle, hclose⟩ := settle_closeBlocks_of_at h rfl (by omega)
  have hnext : s.next = s.scanStreamEnd := by
    unfold next
    rw [hsettle]
    simp only [bind, Except.bind, hclose, h.rest]
  obtain ⟨s', hend, hkinds, hdone, hkey, hflow⟩ : ∃ s', s.scanStreamEnd = .ok s' ∧
      s'.kinds = ks ++ [.blockEnd] ++ [.streamEnd] ∧ s'.isDone = true ∧ s'.blockKey = none ∧
      s'.flowKeys = [] := by
    have hclose : s.closeBlocks (-1) =
        { s.push .blockEnd s.cursor.mark s.cursor.mark with indent := -1, outer := [] } := by
      unfold closeBlocks
      rw [inFlow_of_at h, h.outer]
      simp only [Bool.false_eq_true, ↓reduceIte]
      rw [closeBlocks.go, h.indent, if_pos (by decide), closeBlocks.go]
    unfold scanStreamEnd
    simp only [h.column, ↓reduceIte, hclose, bind, Except.bind]
    rw [@removeKey_of_none { s.push _ _ _ with indent := -1, outer := [] } h.blockKey h.flowKeys]
    refine ⟨_, rfl, ?_, ?_, h.blockKey, h.flowKeys⟩
    . rw [← h.kinds, ← kinds_push s .blockEnd s.cursor.mark s.cursor.mark]
      exact kinds_push _ _ _ _
    . simp [isDone, push]
  intro n hn
  obtain ⟨n, rfl⟩ : ∃ m, n = m + 1 := ⟨n - 1, by omega⟩
  refine ⟨s'.tokens.toList, ?_, hkinds⟩
  rw [run, h.goesOn, hnext, hend]
  simp only [bind, Except.bind, dropStaleKeys_of_none hkey (not_mem_of_nil hflow),
    Bool.false_eq_true, ↓reduceIte]
  rw [run, hdone]
  rfl

end Entries

end Scanner

end ClusterRegistration.Yaml
