import ClusterRegistration.Yaml.Token.Property
import ClusterRegistration.Yaml.Token.Scalar

/-!
This module contains the division of a YAML text into tokens. Indentation becomes tokens of its
own, and a key is recognised when the colon after it is met.
-/

namespace ClusterRegistration.Yaml

structure PossibleKey where
  /-- At the start of a line of a mapping there has to be a key. -/
  required : Bool
  index : Nat
  mark : Mark
deriving Inhabited

structure Scanner where
  cursor : Cursor
  tokens : Array Token
  /-- The column of the innermost block; -1 outside of all blocks. -/
  indent : Int
  outer : List Int
  keyAllowed : Bool
  blockKey : Option PossibleKey
  flowKeys : List (Option PossibleKey)
deriving Inhabited

namespace Scanner

abbrev Step := Scanner → Except SyntaxError Scanner

def inFlow (s : Scanner) : Bool :=
  !s.flowKeys.isEmpty

def column (s : Scanner) : Nat :=
  s.cursor.mark.column

def start (cs : List Char) : Scanner :=
  { cursor := Cursor.start cs
    tokens := #[⟨.streamStart, Mark.start, Mark.start⟩]
    indent := -1
    outer := []
    keyAllowed := true
    blockKey := none
    flowKeys := [] }

def push (s : Scanner) (kind : TokenKind) (start stop : Mark) : Scanner :=
  { s with tokens := s.tokens.push ⟨kind, start, stop⟩ }

def insert (s : Scanner) (i : Nat) (kind : TokenKind) (mark : Mark) : Scanner :=
  { s with tokens := s.tokens.insertIdxIfInBounds i ⟨kind, mark, mark⟩ }

def possibleKey (s : Scanner) : Option PossibleKey :=
  match s.flowKeys with
  | [] => s.blockKey
  | k :: _ => k

def setPossibleKey (s : Scanner) (k : Option PossibleKey) : Scanner :=
  match s.flowKeys with
  | [] => { s with blockKey := k }
  | _ :: ks => { s with flowKeys := k :: ks }

def missingColon {α : Type} (s : Scanner) (k : PossibleKey) : Except SyntaxError α :=
  s.cursor.fail "while scanning a simple key" k.mark "could not find expected ':'"

/--
A key ends on the line where it begins, and within 1024 bytes.
-/
def isStale (s : Scanner) (k : PossibleKey) : Bool :=
  k.mark.line < s.cursor.mark.line || k.mark.offset + 1024 < s.cursor.mark.offset

def dropIfStale (s : Scanner) : Option PossibleKey → Except SyntaxError (Option PossibleKey)
  | none => .ok none
  | some k =>
    if !s.isStale k then .ok (some k)
    else if k.required then s.missingColon k
    else .ok none

def dropStaleKeys : Step := fun s => do
  let blockKey ← s.dropIfStale s.blockKey
  let flowKeys ← s.flowKeys.mapM s.dropIfStale
  pure { s with blockKey := blockKey, flowKeys := flowKeys }

def removeKey : Step := fun s =>
  match s.possibleKey with
  | some k => if k.required then s.missingColon k else .ok (s.setPossibleKey none)
  | none => .ok s

def saveKey : Step := fun s =>
  if s.keyAllowed then do
    let required := !s.inFlow && s.indent = s.column
    let s ← s.removeKey
    pure (s.setPossibleKey (some ⟨required, s.tokens.size, s.cursor.mark⟩))
  else .ok s

def openBlock (s : Scanner) (column : Nat) (at? : Option Nat) (kind : TokenKind) (mark : Mark) :
    Scanner :=
  if !s.inFlow && s.indent < column then
    let s := { s with indent := column, outer := s.indent :: s.outer }
    match at? with
    | some i => s.insert i kind mark
    | none => s.push kind mark mark
  else s

def closeBlocks (s : Scanner) (column : Int) : Scanner :=
  if s.inFlow then s else go s.outer s
where
  go : List Int → Scanner → Scanner
    | [], s => s
    | i :: outer, s =>
      if column < s.indent then
        go outer { s.push .blockEnd s.cursor.mark s.cursor.mark with indent := i, outer := outer }
      else s

def pushIndicator (s : Scanner) (kind : TokenKind) (length : Nat) : Scanner :=
  let c := s.cursor.skipN length
  { s.push kind s.cursor.mark c.mark with cursor := c }

def skipBlanks (s : Scanner) : Scanner :=
  let (c, allowed) := go (s.cursor.rest.length + 1) s.cursor s.keyAllowed
  { s with cursor := c, keyAllowed := allowed }
where
  go : Nat → Cursor → Bool → Cursor × Bool
    | 0, c, allowed => (c, allowed)
    | fuel + 1, c, allowed =>
      let c := if c.mark.column = 0 && c.is (· == byteOrderMark) then c.skip else c
      let c := c.skipWhile (fun a => a == ' ' || ((s.inFlow || !allowed) && a == '\t'))
      let c := if c.is (· == '#') then c.skipLine else c
      if c.is isBreak then go fuel c.skipBreak (allowed || !s.inFlow) else (c, allowed)

def refuse (s : Scanner) (problem : String) : Except SyntaxError Scanner :=
  .error ⟨problem, s.cursor.mark, none⟩

def scanStreamEnd : Step := fun s => do
  let c := s.cursor
  let mark := if c.mark.column = 0 then c.mark else ⟨c.mark.offset, c.mark.line + 1, 0⟩
  let s := { s with cursor := { c with mark := mark } }.closeBlocks (-1)
  let s ← s.removeKey
  pure ({ s with keyAllowed := false }.push .streamEnd mark mark)

def scanDirective : Step := fun s => do
  let s ← (s.closeBlocks (-1)).removeKey
  let began := s.cursor.mark
  let (kind, stop, c) ← Scan.directive s.cursor
  pure { s.push kind began stop with cursor := c, keyAllowed := false }

def scanDocumentIndicator (kind : TokenKind) : Step := fun s => do
  let s ← (s.closeBlocks (-1)).removeKey
  pure ({ s with keyAllowed := false }.pushIndicator kind 3)

def scanFlowStart (kind : TokenKind) : Step := fun s => do
  let s ← s.saveKey
  pure ({ s with flowKeys := none :: s.flowKeys, keyAllowed := true }.pushIndicator kind 1)

def scanFlowEnd (kind : TokenKind) : Step := fun s => do
  let s ← s.removeKey
  pure ({ s with flowKeys := s.flowKeys.tail, keyAllowed := false }.pushIndicator kind 1)

def scanFlowEntry : Step := fun s => do
  let s ← s.removeKey
  pure ({ s with keyAllowed := true }.pushIndicator .flowEntry 1)

def scanBlockEntry : Step := fun s => do
  if !s.inFlow && !s.keyAllowed then
    s.refuse "block sequence entries are not allowed in this context"
  else
    let s ← (s.openBlock s.column none .blockSequenceStart s.cursor.mark).removeKey
    pure ({ s with keyAllowed := true }.pushIndicator .blockEntry 1)

def scanKey : Step := fun s => do
  if !s.inFlow && !s.keyAllowed then
    s.refuse "mapping keys are not allowed in this context"
  else
    let s ← (s.openBlock s.column none .blockMappingStart s.cursor.mark).removeKey
    pure ({ s with keyAllowed := !s.inFlow }.pushIndicator .key 1)

def scanValue : Step := fun s =>
  match s.possibleKey with
  | some k =>
    let s := (s.insert k.index .key k.mark).openBlock k.mark.column (some k.index)
      .blockMappingStart k.mark
    .ok ({ s.setPossibleKey none with keyAllowed := false }.pushIndicator .value 1)
  | none =>
    if !s.inFlow && !s.keyAllowed then
      s.refuse "mapping values are not allowed in this context"
    else
      let s := s.openBlock s.column none .blockMappingStart s.cursor.mark
      .ok ({ s with keyAllowed := !s.inFlow }.pushIndicator .value 1)

def scanAnchor (context : String) (kind : String → TokenKind) : Step := fun s => do
  let s ← s.saveKey
  let (name, c) ← Scan.anchor context s.cursor
  pure { s.push (kind name) s.cursor.mark c.mark with cursor := c, keyAllowed := false }

def scanTag : Step := fun s => do
  let s ← s.saveKey
  let ((handle, suffix), c) ← Scan.tag s.inFlow s.cursor
  pure { s.push (.tag handle suffix) s.cursor.mark c.mark with cursor := c, keyAllowed := false }

def scanBlockScalar (literal : Bool) : Step := fun s => do
  let s ← s.removeKey
  let (cs, stop, c) ← Scan.block literal s.indent s.cursor
  let kind := TokenKind.scalar (String.ofList cs) (if literal then .literal else .folded)
  pure { s.push kind s.cursor.mark stop with cursor := c, keyAllowed := true }

def scanQuoted (single : Bool) : Step := fun s => do
  let s ← s.saveKey
  let c := s.cursor.skip
  let (cs, c) ← Scan.quoted single s.cursor.mark (c.rest.length + 1) [] c
  pure { s.push (.scalar (String.ofList cs) .quoted) s.cursor.mark c.mark with
    cursor := c, keyAllowed := false }

def scanPlain : Step := fun s => do
  let s ← s.saveKey
  let mark := s.cursor.mark
  let (p, c) ← Scan.plain s.inFlow (s.indent + 1) mark (s.cursor.rest.length + 1) [] Scan.Gap.empty
    mark s.cursor
  pure { s.push (.scalar (String.ofList p.text) .plain) mark p.stop with
    cursor := c, keyAllowed := p.afterBreak }

def startsPlain (flow : Bool) (cs : List Char) : Bool :=
  match cs with
  | [] => false
  | a :: rest =>
    (!isBlankOrBreak a && a ∉ ['-', '?', ':', ',', '[', ']', '\x7b', '\x7d', '#', '&', '*', '!', '|',
        '>', '\'', '"', '%', '@', '\x60']) ||
      (a == '-' && !(rest.head?.map isBlank).getD false) ||
      (!flow && (a == '?' || a == ':') && !endsWord rest)

def next : Step := fun s => do
  let s ← s.skipBlanks.dropStaleKeys
  let s := s.closeBlocks s.column
  match s.cursor.rest with
  | [] => s.scanStreamEnd
  | a :: rest =>
    let lineStart := s.column = 0
    if lineStart && a == '%' then s.scanDirective
    else if lineStart && a == '-' && isDocumentIndicator (a :: rest) then
      s.scanDocumentIndicator .documentStart
    else if lineStart && a == '.' && isDocumentIndicator (a :: rest) then
      s.scanDocumentIndicator .documentEnd
    else if a == '[' then s.scanFlowStart .flowSequenceStart
    else if a == '\x7b' then s.scanFlowStart .flowMappingStart
    else if a == ']' then s.scanFlowEnd .flowSequenceEnd
    else if a == '\x7d' then s.scanFlowEnd .flowMappingEnd
    else if a == ',' then s.scanFlowEntry
    else if a == '-' && endsWord rest then s.scanBlockEntry
    else if a == '?' && (s.inFlow || endsWord rest) then s.scanKey
    else if a == ':' && (s.inFlow || endsWord rest) then s.scanValue
    else if a == '*' then s.scanAnchor "while scanning an alias" .alias
    else if a == '&' then s.scanAnchor "while scanning an anchor" .anchor
    else if a == '!' then s.scanTag
    else if a == '|' && !s.inFlow then s.scanBlockScalar true
    else if a == '>' && !s.inFlow then s.scanBlockScalar false
    else if a == '\'' then s.scanQuoted true
    else if a == '"' then s.scanQuoted false
    else if startsPlain s.inFlow (a :: rest) then s.scanPlain
    else
      s.cursor.fail "while scanning for the next token" s.cursor.mark
        "found character that cannot start any token"

def isDone (s : Scanner) : Bool :=
  s.tokens.back?.map (·.kind) = some .streamEnd

def settled (s : Scanner) : Nat :=
  (s.blockKey :: s.flowKeys).foldl
    (fun n k? => match k? with | some k => min n k.index | none => n) s.tokens.size

def run : Nat → Scanner → List Token × Option SyntaxError
  | 0, s => (s.tokens.toList, none)
  | fuel + 1, s =>
    if s.isDone then (s.tokens.toList, none)
    else
      match s.next >>= dropStaleKeys with
      | .ok s' => run fuel s'
      | .error e => (s.tokens.toList.take s.settled, some e)

end Scanner

def tokens (cs : List Char) : List Token × Option SyntaxError :=
  (Scanner.start cs).run (cs.length + 2)

end ClusterRegistration.Yaml
