import ClusterRegistration.Proofs.Yaml.Key

/-!
This module contains the tokens of a written document, from those of its leaves up.
-/

namespace ClusterRegistration.Yaml

open Cursor

section Leaves

variable {s : Scanner} {allowed : Bool} {rest : List Char} {column m : Nat} {ks : List TokenKind}
  {indent : Nat} {outer : List Int}

namespace Text

variable {text : String}

def shown (s : String) : ScalarStyle :=
  match style s with
  | .plain => .plain
  | .singleQuoted => .quoted
  | .doubleQuoted => .quoted
  | .literal => .literal

theorem of_style_literal (h : style text = .literal) :
    allowsLiteral text.toList = true ∧ text.toList ≠ [] := by
  unfold style at h
  simp only at h
  split at h
  . next hfeed =>
    split at h
    . next hallows =>
      refine ⟨hallows, ?_⟩
      intro hnil
      rw [hnil] at hfeed
      cases hfeed
    . cases h
  . split at h
    . cases h
    . split at h <;> cases h

theorem of_style_plain (h : style text = .plain) :
    isAmbiguous text = false ∧ allowsPlain text.toList = true := by
  unfold style at h
  simp only at h
  split at h
  . split at h <;> cases h
  . split at h
    . next hplain => simpa using hplain
    . split at h <;> cases h

theorem of_style_singleQuoted (h : style text = .singleQuoted) : Scan.Calm text.toList := by
  unfold style at h
  simp only at h
  split at h
  . split at h <;> cases h
  . next hfeed =>
    split at h
    . cases h
    . split at h
      . next hquoted =>
        rw [allowsSingleQuoted, Bool.and_eq_true, Bool.not_eq_true'] at hquoted
        refine ⟨isPrintable_of_isClean hquoted.1, ?_, hasNeighbours_of_isClean hquoted.1, hquoted.2⟩
        simpa using hfeed
      . cases h

theorem ne_of_isAmbiguous (h : isAmbiguous text = false) :
    text.isEmpty = false ∧ Resolved.isNull text = false := by
  rw [isAmbiguous, Bool.or_eq_false_iff, Bool.not_eq_false'] at h
  have htext := h.1
  unfold Resolved.ofPlain at htext
  split at htext
  . cases htext
  . next hunit =>
    rw [Bool.not_eq_true, Bool.or_eq_false_iff] at hunit
    exact hunit

end Text

namespace Scanner

theorem exists_at_of_text (text : String)
    (h : s.At allowed (Text.render (indent + 2) text ++ (Text.blanks m ++ rest)) column ks indent outer)
    (hfirm : Firm rest) (hcolumn : indent < column) (hm : m ≤ indent) :
    ∃ s', s.Reads s' ∧ s'.At true rest m (ks ++ [.scalar text (Text.shown text)]) indent outer := by
  unfold Text.render at h
  unfold Text.shown
  cases hstyle : Text.style text with
  | plain =>
    obtain ⟨hambiguous, hallows⟩ := Text.of_style_plain hstyle
    rw [hstyle, List.append_assoc] at h
    have hne : text.toList ≠ [] := by
      intro hnil
      have hempty := (Text.ne_of_isAmbiguous hambiguous).1
      rw [String.toList_eq_nil_iff] at hnil
      rw [hnil] at hempty
      contradiction
    have hread := exists_at_of_plain h hallows hne hfirm hcolumn hm
    rwa [String.ofList_toList] at hread
  | singleQuoted =>
    have hquoted := Scan.quoted_singleQuotedBody (indent + 2) text.toList (Text.of_style_singleQuoted hstyle)
    have hraw : Text.singleQuoted (indent + 2) text.toList ++ ['\n'] ++ (Text.blanks m ++ rest) =
        Scan.quote true :: (Text.singleQuotedBody (indent + 2) false text.toList ++
          Scan.quote true :: '\n' :: (Text.blanks m ++ rest)) := by
      simp [Text.singleQuoted, Scan.quote]
    rw [hstyle] at h
    simp only [hraw] at h
    have hread := exists_at_of_quoted true h hquoted hfirm hcolumn
    rwa [String.ofList_toList] at hread
  | doubleQuoted =>
    have hquoted := Scan.quoted_flatMap_escape (indent + 2) text.toList
    have hraw : Text.doubleQuoted text.toList ++ ['\n'] ++ (Text.blanks m ++ rest) =
        Scan.quote false :: (text.toList.flatMap Text.escape ++
          Scan.quote false :: '\n' :: (Text.blanks m ++ rest)) := by
      simp [Text.doubleQuoted, Scan.quote]
    rw [hstyle] at h
    simp only [hraw] at h
    have hread := exists_at_of_quoted false h hquoted hfirm hcolumn
    rwa [String.ofList_toList] at hread
  | literal =>
    obtain ⟨hallows, hne⟩ := Text.of_style_literal hstyle
    rw [hstyle] at h
    have hread := exists_at_of_literal h hallows hne hfirm hcolumn hm
    rwa [String.ofList_toList] at hread

theorem firm_render (indent : Nat) (text : String) (tail : List Char) :
    Firm (Text.render indent text ++ tail) := by
  unfold Text.render
  cases hstyle : Text.style text with
  | plain =>
    obtain ⟨hambiguous, hallows⟩ := Text.of_style_plain hstyle
    cases hcs : text.toList with
    | nil =>
      rw [String.toList_eq_nil_iff] at hcs
      have hempty := (Text.ne_of_isAmbiguous hambiguous).1
      rw [hcs] at hempty
      contradiction
    | cons a as =>
      rw [hcs] at hallows
      have hfront := ordinary_of_allowsPlain hallows []
      show (isBlankOrBreak a || a == '#' || a == byteOrderMark) = false
      have hhash : a ≠ '#' := by
        rintro rfl
        have := hfront.indicator
        contradiction
      simp [hfront.solid, hfront.unmarked, hhash]
  | singleQuoted => rfl
  | doubleQuoted => rfl
  | literal => rfl

end Scanner

end Leaves

inductive Writable : Json → Prop where
  | text (s : String) : Writable (.text s)
  | flag (b : Bool) : Writable (.flag b)
  | array {js : List Json} (h : ∀ j ∈ js, Writable j) : Writable (.array js)
  | object {ms : List (String × Json)} (hkeys : ∀ m ∈ ms, Key m.1.toList)
    (h : ∀ m ∈ ms, Writable m.2) : Writable (.object ms)

def leafKinds : Json → List TokenKind
  | .text s => [.scalar s (Text.shown s)]
  | .flag b => [.scalar (if b then "true" else "false") .plain]
  | .array _ => [.flowSequenceStart, .flowSequenceEnd]
  | .object _ => [.flowMappingStart, .flowMappingEnd]
  | _ => []

mutual

def kindsAfterKey : Json → List TokenKind
  | .array (j :: js) => itemKinds (j :: js)
  | .object (m :: ms) => .blockMappingStart :: (memberKinds (m :: ms) ++ [.blockEnd])
  | j => leafKinds j

def kindsAfterDash : Json → List TokenKind
  | .array (j :: js) => .blockSequenceStart :: (itemKinds (j :: js) ++ [.blockEnd])
  | .object (m :: ms) => .blockMappingStart :: (memberKinds (m :: ms) ++ [.blockEnd])
  | j => leafKinds j

def itemKinds : List Json → List TokenKind
  | [] => []
  | j :: js => .blockEntry :: (kindsAfterDash j ++ itemKinds js)

def memberKinds : List (String × Json) → List TokenKind
  | [] => []
  | (k, j) :: ms => .key :: .scalar k .plain :: .value :: (kindsAfterKey j ++ memberKinds ms)

end

namespace Scanner

section Nodes

variable {s : Scanner} {allowed : Bool} {rest : List Char} {column m : Nat} {ks : List TokenKind}
  {indent : Nat} {outer : List Int}

def isLeaf : Json → Bool
  | .array (_ :: _) => false
  | .object (_ :: _) => false
  | _ => true

theorem exists_at_of_leaf {j : Json} (hj : Writable j) (hleaf : isLeaf j = true)
    (h : s.At allowed (renderLeaf indent j ++ (Text.blanks m ++ rest)) column ks indent outer)
    (hfirm : Firm rest) (hcolumn : indent < column) (hm : m ≤ indent) :
    ∃ s', s.Reads s' ∧ s'.At true rest m (ks ++ leafKinds j) indent outer := by
  cases hj with
  | text text => exact exists_at_of_text text h hfirm hcolumn hm
  | flag b =>
    have hread (cs : List Char) (hallows : Text.allowsPlain cs = true) (hne : cs ≠ [])
        (h : s.At allowed (cs ++ ['\n'] ++ (Text.blanks m ++ rest)) column ks indent outer) :
        ∃ s', s.Reads s' ∧
          s'.At true rest m (ks ++ [.scalar (String.ofList cs) .plain]) indent outer := by
      rw [List.append_assoc] at h
      exact exists_at_of_plain h hallows hne hfirm hcolumn hm
    cases b with
    | true => exact hread "true".toList (by decide) (by decide) h
    | false => exact hread "false".toList (by decide) (by decide) h
  | @array js hjs =>
    cases js with
    | nil =>
      have hread := exists_at_of_empty true h hfirm hcolumn
      rwa [List.append_assoc] at hread
    | cons j js => cases hleaf
  | @object ms hkeys hms =>
    cases ms with
    | nil =>
      have hread := exists_at_of_empty false h hfirm hcolumn
      rwa [List.append_assoc] at hread
    | cons m ms => cases hleaf

theorem firm_renderLeaf {j : Json} (hj : Writable j) (tail : List Char) :
    Firm (renderLeaf indent j ++ tail) := by
  cases hj with
  | text text => exact firm_render _ text tail
  | flag b => cases b <;> rfl
  | array => rfl
  | object => rfl

theorem renderMembers_eq (indent : Nat) (k : String) (j : Json) (ms : List (String × Json)) :
    ∃ tail, renderMembers indent ((k, j) :: ms) = k.toList ++ ':' :: tail := by
  cases ms with
  | nil => exact ⟨_, by rw [renderMembers]⟩
  | cons m ms =>
    refine ⟨renderAfterKey indent j ++ Text.blanks indent ++ renderMembers indent (m :: ms), ?_⟩
    rw [renderMembers]
    . simp only [List.append_assoc, List.cons_append]
    . simp

theorem firm_renderMembers {ms : List (String × Json)} (hkeys : ∀ m ∈ ms, Key m.1.toList) (hne : ms ≠ [])
    (tail : List Char) : Firm (renderMembers indent ms ++ tail) := by
  cases ms with
  | nil => contradiction
  | cons m ms =>
    obtain ⟨k, j⟩ := m
    have hkey := hkeys _ List.mem_cons_self
    obtain ⟨a, as, hk, hfront, -⟩ := ordinary_of_key hkey []
    obtain ⟨tail', htail⟩ := renderMembers_eq indent k j ms
    have hk : k.toList = a :: as := hk
    have hhash : a ≠ '#' := by
      rintro rfl
      have := hfront.indicator
      contradiction
    rw [htail, hk]
    show (isBlankOrBreak a || a == '#' || a == byteOrderMark) = false
    simp [hfront.solid, hfront.unmarked, hhash]

theorem firm_renderItems {js : List Json} (hne : js ≠ []) (tail : List Char) :
    Firm (renderItems indent js ++ tail) := by
  cases js with
  | nil => contradiction
  | cons j js => cases js <;> rfl

theorem endsWord_renderAfterKey (indent : Nat) (j : Json) (tail : List Char) :
    endsWord (renderAfterKey indent j ++ tail) = true := by
  unfold renderAfterKey
  split <;> rfl

def dashed (indent : Nat) (j : Json) : List Char :=
  (renderAfterDash indent j).tail

theorem renderAfterDash_eq (indent : Nat) (j : Json) :
    renderAfterDash indent j = ' ' :: dashed indent j := by
  unfold dashed
  unfold renderAfterDash
  split <;> rfl

theorem firm_dashed {j : Json} (hj : Writable j) (tail : List Char) :
    Firm (dashed indent j ++ tail) := by
  unfold dashed renderAfterDash
  split
  . exact firm_renderItems (List.cons_ne_nil _ _) tail
  . cases hj with
    | object hkeys h => exact firm_renderMembers hkeys (List.cons_ne_nil _ _) tail
  . exact firm_renderLeaf hj tail

/--
The tokens of a value are read, after a key and after a dash.
-/
structure Legible (j : Json) : Prop where
  writable : Writable j
  afterKey : ∀ {s : Scanner} {rest : List Char} {column m : Nat} {ks : List TokenKind} {indent : Nat}
    {outer : List Int},
    s.At false (renderAfterKey indent j ++ (Text.blanks m ++ rest)) column ks indent outer →
      Firm rest → indent < column → m ≤ indent →
        ∃ s', s.Reads s' ∧ s'.At true rest m (ks ++ kindsAfterKey j) indent outer
  afterDash : ∀ {s : Scanner} {rest : List Char} {m : Nat} {ks : List TokenKind} {indent : Nat}
    {outer : List Int},
    s.At true (dashed indent j ++ (Text.blanks m ++ rest)) (indent + 2) ks indent outer →
      Firm rest → m ≤ indent →
        ∃ s', s.Reads s' ∧ s'.At true rest m (ks ++ kindsAfterDash j) indent outer

theorem exists_at_of_items {js : List Json} {i : Int} (hjs : ∀ j ∈ js, Legible j) (hne : js ≠ [])
    (h : s.At true (renderItems indent js ++ (Text.blanks m ++ rest)) indent ks i outer)
    (hfirm : Firm rest) (hle : i ≤ indent) (hm : m ≤ indent) :
    ∃ s', s.Reads s' ∧ s'.At true rest m
      (ks ++ (if i < indent then [.blockSequenceStart] else []) ++ itemKinds js) indent
      (if i < indent then i :: outer else outer) := by
  induction js generalizing s ks i outer with
  | nil => contradiction
  | cons j js ih =>
    have hj := hjs j List.mem_cons_self
    have hjs' : ∀ j ∈ js, Legible j := fun j' hj' => hjs j' (List.mem_cons_of_mem j hj')
    cases js with
    | nil =>
      rw [renderItems, renderAfterDash_eq] at h
      obtain ⟨s₁, hreads, hat⟩ := exists_at_of_dash h hle (firm_dashed hj.writable _)
      obtain ⟨s₂, hreads', hat'⟩ := hj.afterDash hat hfirm hm
      refine ⟨s₂, reads_trans hreads hreads', ?_⟩
      simpa [itemKinds] using hat'
    | cons j' js =>
      have hsplit : renderItems indent (j :: j' :: js) ++ (Text.blanks m ++ rest) =
          '-' :: ' ' :: (dashed indent j ++ (Text.blanks indent ++
            (renderItems indent (j' :: js) ++ (Text.blanks m ++ rest)))) := by
        rw [renderItems, renderAfterDash_eq]
        . simp only [List.append_assoc, List.cons_append]
        . simp
      rw [hsplit] at h
      obtain ⟨s₁, hreads, hat⟩ := exists_at_of_dash h hle (firm_dashed hj.writable _)
      obtain ⟨s₂, hreads', hat'⟩ := hj.afterDash hat (firm_renderItems (List.cons_ne_nil _ _) _)
        (Nat.le_refl indent)
      -- The block has begun with the first dash, so the others begin none.
      obtain ⟨s₃, hreads'', hat''⟩ := ih hjs' (List.cons_ne_nil _ _) hat' (Int.le_refl _)
      refine ⟨s₃, reads_trans hreads (reads_trans hreads' hreads''), ?_⟩
      rw [if_neg (Int.lt_irrefl _), if_neg (Int.lt_irrefl _)] at hat''
      simpa [itemKinds] using hat''

theorem exists_at_of_members {ms : List (String × Json)} {i : Int} (hms : ∀ m ∈ ms, Legible m.2)
    (hkeys : ∀ m ∈ ms, Key m.1.toList) (hne : ms ≠ [])
    (h : s.At true (renderMembers indent ms ++ (Text.blanks m ++ rest)) indent ks i outer)
    (hfirm : Firm rest) (hle : i ≤ indent) (hm : m ≤ indent) :
    ∃ s', s.Reads s' ∧ s'.At true rest m
      (ks ++ (if i < indent then [.blockMappingStart] else []) ++ memberKinds ms) indent
      (if i < indent then i :: outer else outer) := by
  induction ms generalizing s ks i outer with
  | nil => contradiction
  | cons member ms ih =>
    obtain ⟨k, j⟩ := member
    have hj : Legible j := hms _ List.mem_cons_self
    have hkey : Key k.toList := hkeys _ List.mem_cons_self
    have hms' : ∀ m ∈ ms, Legible m.2 := fun m' hm' => hms m' (List.mem_cons_of_mem _ hm')
    have hkeys' : ∀ m ∈ ms, Key m.1.toList := fun m' hm' => hkeys m' (List.mem_cons_of_mem _ hm')
    -- A member is followed by another one in the same column, but for the last one.
    cases ms with
    | nil =>
      rw [renderMembers, List.append_assoc, List.cons_append] at h
      obtain ⟨s₁, hreads, hat⟩ := exists_at_of_key h hkey (endsWord_renderAfterKey indent j _) hle
      obtain ⟨s₂, hreads', hat'⟩ := hj.afterKey hat hfirm (by omega) hm
      refine ⟨s₂, reads_trans hreads hreads', ?_⟩
      simpa [memberKinds] using hat'
    | cons member' ms =>
      have hsplit : renderMembers indent ((k, j) :: member' :: ms) ++ (Text.blanks m ++ rest) =
          k.toList ++ ':' :: (renderAfterKey indent j ++ (Text.blanks indent ++
            (renderMembers indent (member' :: ms) ++ (Text.blanks m ++ rest)))) := by
        rw [renderMembers]
        . simp only [List.append_assoc, List.cons_append]
        . simp
      rw [hsplit] at h
      obtain ⟨s₁, hreads, hat⟩ := exists_at_of_key h hkey (endsWord_renderAfterKey indent j _) hle
      obtain ⟨s₂, hreads', hat'⟩ := hj.afterKey hat (firm_renderMembers hkeys' (List.cons_ne_nil _ _) _)
        (by omega) (Nat.le_refl indent)
      obtain ⟨s₃, hreads'', hat''⟩ := ih hms' hkeys' (List.cons_ne_nil _ _) hat' (Int.le_refl _)
      refine ⟨s₃, reads_trans hreads (reads_trans hreads' hreads''), ?_⟩
      rw [if_neg (Int.lt_irrefl _), if_neg (Int.lt_irrefl _)] at hat''
      simpa [memberKinds] using hat''

theorem legible_of_isLeaf {j : Json} (hj : Writable j) (hleaf : isLeaf j = true) : Legible j := by
  have hkey (indent : Nat) : renderAfterKey indent j = ' ' :: renderLeaf indent j := by
    unfold renderAfterKey
    split
    . cases hleaf
    . cases hleaf
    . rfl
  have hdash (indent : Nat) : dashed indent j = renderLeaf indent j := by
    unfold dashed renderAfterDash
    split
    . cases hleaf
    . cases hleaf
    . rfl
  have hkeyKinds : kindsAfterKey j = leafKinds j := by
    unfold kindsAfterKey
    split
    . cases hleaf
    . cases hleaf
    . rfl
  have hdashKinds : kindsAfterDash j = leafKinds j := by
    unfold kindsAfterDash
    split
    . cases hleaf
    . cases hleaf
    . rfl
  constructor
  . exact hj
  . intro s rest column m ks indent outer h hfirm hcolumn hm
    rw [hkey] at h
    obtain ⟨s₁, hreads, hat⟩ := @exists_at_of_blanks s _ 1 h.goesOn h.flowKeys h.blockKey h.rest
      (firm_renderLeaf hj _)
    rw [h.allowed, h.column, h.kinds, h.indent, h.outer] at hat
    obtain ⟨s₂, hreads', hat'⟩ := exists_at_of_leaf hj hleaf hat hfirm (by omega) hm
    rw [hkeyKinds]
    exact ⟨s₂, reads_trans hreads hreads', hat'⟩
  . intro s rest m ks indent outer h hfirm hm
    rw [hdash] at h
    rw [hdashKinds]
    exact exists_at_of_leaf hj hleaf h hfirm (by omega) hm

theorem legible_array {j : Json} {js : List Json} (hj : Writable (.array (j :: js)))
    (h : ∀ j' ∈ j :: js, Legible j') : Legible (.array (j :: js)) := by
  have hne : j :: js ≠ [] := List.cons_ne_nil _ _
  constructor
  . exact hj
  . intro s rest column m ks indent outer hs hfirm hcolumn hm
    rw [renderAfterKey, List.append_assoc, List.cons_append] at hs
    obtain ⟨s₁, hreads, hat⟩ := exists_at_of_past (past_of_at hs) (firm_renderItems hne _)
    -- The dashes are in the column of the key, where no block begins.
    obtain ⟨s₂, hreads', hat'⟩ := exists_at_of_items h hne hat hfirm (Int.le_refl _) hm
    rw [if_neg (Int.lt_irrefl _), if_neg (Int.lt_irrefl _), List.append_nil] at hat'
    exact ⟨s₂, reads_trans hreads hreads', hat'⟩
  . intro s rest m ks indent outer hs hfirm hm
    obtain ⟨s₁, hreads, hat⟩ := exists_at_of_items h hne hs hfirm (by omega) (by omega)
    rw [if_pos (by omega), if_pos (by omega)] at hat
    obtain ⟨s₂, hreads', hat'⟩ := exists_at_of_end hat hfirm (by omega)
    refine ⟨s₂, reads_trans hreads hreads', ?_⟩
    simpa [kindsAfterDash] using hat'

theorem legible_object {m : String × Json} {ms : List (String × Json)}
    (hj : Writable (.object (m :: ms))) (hkeys : ∀ m' ∈ m :: ms, Key m'.1.toList)
    (h : ∀ m' ∈ m :: ms, Legible m'.2) : Legible (.object (m :: ms)) := by
  have hne : m :: ms ≠ [] := List.cons_ne_nil _ _
  constructor
  . exact hj
  . intro s rest column n ks indent outer hs hfirm hcolumn hn
    rw [renderAfterKey, List.append_assoc, List.cons_append] at hs
    obtain ⟨s₁, hreads, hat⟩ := exists_at_of_past (past_of_at hs) (firm_renderMembers hkeys hne _)
    obtain ⟨s₂, hreads', hat'⟩ := exists_at_of_members h hkeys hne hat hfirm (by omega) (by omega)
    rw [if_pos (by omega), if_pos (by omega)] at hat'
    obtain ⟨s₃, hreads'', hat''⟩ := exists_at_of_end hat' hfirm (by omega)
    refine ⟨s₃, reads_trans hreads (reads_trans hreads' hreads''), ?_⟩
    simpa [kindsAfterKey] using hat''
  . intro s rest n ks indent outer hs hfirm hn
    obtain ⟨s₁, hreads, hat⟩ := exists_at_of_members h hkeys hne hs hfirm (by omega) (by omega)
    rw [if_pos (by omega), if_pos (by omega)] at hat
    obtain ⟨s₂, hreads', hat'⟩ := exists_at_of_end hat hfirm (by omega)
    refine ⟨s₂, reads_trans hreads hreads', ?_⟩
    simpa [kindsAfterDash] using hat'

theorem legible_of_writable {j : Json} (h : Writable j) : Legible j := by
  induction h with
  | text text => exact legible_of_isLeaf (.text text) rfl
  | flag b => exact legible_of_isLeaf (.flag b) rfl
  | @array js hjs ih =>
    cases js with
    | nil => exact legible_of_isLeaf (.array hjs) rfl
    | cons j js => exact legible_array (.array hjs) ih
  | @object ms hkeys hms ih =>
    cases ms with
    | nil => exact legible_of_isLeaf (.object hkeys hms) rfl
    | cons m ms => exact legible_object (.object hkeys hms) hkeys ih

end Nodes

end Scanner

theorem tokens_render {m : String × Json} {ms : List (String × Json)}
    (h : Writable (.object (m :: ms))) :
    ∃ ts, tokens (render (.object (m :: ms))).toList = (ts, none) ∧
      ts.map (·.kind) = .streamStart :: (kindsAfterDash (.object (m :: ms)) ++ [.streamEnd]) := by
  obtain ⟨hkeys, hms⟩ : (∀ m' ∈ m :: ms, Key m'.1.toList) ∧ ∀ m' ∈ m :: ms, Writable m'.2 := by
    cases h with
    | object hkeys hms => exact ⟨hkeys, hms⟩
  have hat : (Scanner.start (renderMembers 0 (m :: ms))).At true
      (renderMembers 0 (m :: ms) ++ (Text.blanks 0 ++ [])) 0 [.streamStart] (-1) [] := by
    refine ⟨(List.append_nil _).symm, rfl, rfl, rfl, rfl, rfl, rfl, rfl, rfl⟩
  obtain ⟨s, hreads, hat'⟩ := Scanner.exists_at_of_members
    (fun m' hm' => Scanner.legible_of_writable (hms m' hm')) hkeys (List.cons_ne_nil _ _) hat rfl
    (by decide) (Nat.le_refl 0)
  have hends := hreads _ (Scanner.ends_of_at hat')
  obtain ⟨ts, hts, hkinds⟩ := hends ((renderMembers 0 (m :: ms)).length + 1) (Nat.lt_succ_self _)
  refine ⟨ts, ?_, ?_⟩
  . unfold tokens render
    rw [String.toList_ofList]
    exact hts
  . rw [hkinds]
    simp [kindsAfterDash]

end ClusterRegistration.Yaml
