import ClusterRegistration.Yaml.Event
import ClusterRegistration.Yaml.Token.Scanner

namespace ClusterRegistration.Yaml

inductive Expectation where
  | streamStart
  | document (implicit : Bool)
  | documentContent
  | documentEnd
  | blockNode
  | blockSequenceEntry (first : Bool)
  | indentlessSequenceEntry
  | blockMappingKey (first : Bool)
  | blockMappingValue
  | flowSequenceEntry (first : Bool)
  | flowPairKey
  | flowPairValue
  | flowPairEnd
  | flowMappingKey (first : Bool)
  | flowMappingValue
  | flowMappingEmptyValue
  | nothing
deriving DecidableEq, Repr, Inhabited

structure Parser where
  tokens : List Token
  error : Option SyntaxError
  expectation : Expectation
  pending : List Expectation
  began : List Mark
  handles : List (String × String)
deriving Inhabited

namespace Parser

abbrev Result := Except SyntaxError (Event × Parser)

def start (tokens : List Token) (error : Option SyntaxError) : Parser :=
  ⟨tokens, error, .streamStart, [], [], []⟩

def peek (p : Parser) : Except SyntaxError Token :=
  match p.tokens with
  | t :: _ => .ok t
  | [] => .error (p.error.getD ⟨"did not find expected <stream-start>", Mark.start, none⟩)

def skip (p : Parser) : Parser :=
  { p with tokens := p.tokens.tail }

def expect (p : Parser) (e : Expectation) : Parser :=
  { p with expectation := e }

def later (p : Parser) (e : Expectation) : Parser :=
  { p with pending := e :: p.pending }

def resume (p : Parser) : Parser :=
  { p with expectation := p.pending.head?.getD .nothing, pending := p.pending.tail }

def enter (p : Parser) (mark : Mark) : Parser :=
  { p with began := mark :: p.began }

def leave (p : Parser) : Parser :=
  { p with began := p.began.tail }.resume

def emit (p : Parser) (kind : EventKind) (mark : Mark) : Result :=
  .ok (⟨kind, mark⟩, p)

def emptyScalar (p : Parser) (mark : Mark) : Result :=
  p.emit (.scalar .none "" .plain) mark

def fail {α : Type} (problem : String) (mark : Mark) : Except SyntaxError α :=
  .error ⟨problem, mark, none⟩

def failIn {α : Type} (p : Parser) (context problem : String) (mark : Mark) :
    Except SyntaxError α :=
  .error ⟨problem, mark, some (context, p.began.head?.getD Mark.start)⟩

def isOneOf (t : Token) (kinds : List TokenKind) : Bool :=
  kinds.contains t.kind

structure Prelude where
  anchor : Option String
  tag : Option (String × String × Mark)

def takeAnchor (p : Parser) : Except SyntaxError (Option String × Parser) := do
  let t ← p.peek
  match t.kind with
  | .anchor name => pure (some name, p.skip)
  | _ => pure (none, p)

def takeTag (p : Parser) : Except SyntaxError (Option (String × String × Mark) × Parser) := do
  let t ← p.peek
  match t.kind with
  | .tag handle suffix => pure (some (handle, suffix, t.start), p.skip)
  | _ => pure (none, p)

def takePrelude (p : Parser) : Except SyntaxError (Prelude × Parser) := do
  let (anchor, p) ← p.takeAnchor
  let (tag, p) ← p.takeTag
  if anchor.isNone && tag.isSome then
    let (anchor, p) ← p.takeAnchor
    pure (⟨anchor, tag⟩, p)
  else
    pure (⟨anchor, tag⟩, p)

def resolveTag (p : Parser) (began : Mark) :
    Option (String × String × Mark) → Except SyntaxError (Option String)
  | none => .ok none
  | some (handle, suffix, mark) =>
    if handle.isEmpty then .ok (some suffix)
    else
      match p.handles.lookup handle with
      | some tagPrefix => .ok (some (tagPrefix ++ suffix))
      | none =>
        .error ⟨"found undefined tag handle", mark, some ("while parsing a node", began)⟩

def node (p : Parser) (block indentless : Bool) : Result := do
  let t ← p.peek
  match t.kind with
  | .alias name => p.skip.resume.emit (.alias name) t.start
  | _ =>
    let began := t.start
    let (front, p) ← p.takePrelude
    let t ← p.peek
    let tag ← p.resolveTag began front.tag
    let properties : Properties := ⟨front.anchor, tag⟩
    match t.kind with
    | .scalar text style =>
      let tag := if tag = some "!" then none else tag
      p.skip.resume.emit (.scalar ⟨front.anchor, tag⟩ text style) began
    | .flowSequenceStart =>
      (p.expect (.flowSequenceEntry true)).emit (.sequenceStart properties) began
    | .flowMappingStart => (p.expect (.flowMappingKey true)).emit (.mappingStart properties) began
    | kind =>
      if indentless && kind = .blockEntry then
        (p.expect .indentlessSequenceEntry).emit (.sequenceStart properties) began
      else if block && kind = .blockSequenceStart then
        (p.expect (.blockSequenceEntry true)).emit (.sequenceStart properties) began
      else if block && kind = .blockMappingStart then
        (p.expect (.blockMappingKey true)).emit (.mappingStart properties) began
      else if !properties.isEmpty then
        p.resume.emit (.scalar properties "" .plain) began
      else
        .error ⟨"did not find expected node content", t.start,
          some (if block then "while parsing a block node" else "while parsing a flow node", began)⟩

def defaultHandles : List (String × String) :=
  [("!", "!"), ("!!", "tag:yaml.org,2002:")]

def directives : Nat → Bool → List (String × String) → Parser →
    Except SyntaxError (List (String × String) × Parser)
  | 0, _, handles, p => .ok (handles, p)
  | fuel + 1, versioned, handles, p => do
    let t ← p.peek
    match t.kind with
    | .versionDirective major minor =>
      if versioned then
        fail "found duplicate %YAML directive" t.start
      else if major != 1 || (minor != 1 && minor != 2) then
        fail "found incompatible YAML document" t.start
      else
        directives fuel true handles p.skip
    | .tagDirective handle tagPrefix =>
      if (handles.lookup handle).isSome then
        fail "found duplicate %TAG directive" t.start
      else
        directives fuel versioned (handles ++ [(handle, tagPrefix)]) p.skip
    | _ => pure (handles, p)

def skipDocumentEnds (p : Parser) : Parser :=
  { p with tokens := p.tokens.dropWhile (·.kind = .documentEnd) }

def beginDocument (p : Parser) (handles : List (String × String)) (content : Expectation) : Parser :=
  ({ p with handles := handles }.later .documentEnd).expect content

def document (p : Parser) (implicit : Bool) : Result := do
  let p := if implicit then p else p.skipDocumentEnds
  let t ← p.peek
  let isExplicit :=
    match t.kind with
    | .versionDirective _ _ => true
    | .tagDirective _ _ => true
    | .documentStart => true
    | _ => false
  if t.kind = .streamEnd then
    (p.skip.expect .nothing).emit .streamEnd t.start
  else if implicit && !isExplicit then
    (p.beginDocument defaultHandles .blockNode).emit .documentStart t.start
  else
    let (handles, p) ← directives (p.tokens.length + 1) false [] p
    let t' ← p.peek
    if t'.kind = .documentStart then
      (p.skip.beginDocument (handles ++ defaultHandles) .documentContent).emit .documentStart t.start
    else
      fail "did not find expected <document start>" t'.start

def documentContent (p : Parser) : Result := do
  let t ← p.peek
  match t.kind with
  | .versionDirective _ _ => p.resume.emptyScalar t.start
  | .tagDirective _ _ => p.resume.emptyScalar t.start
  | .documentStart => p.resume.emptyScalar t.start
  | .documentEnd => p.resume.emptyScalar t.start
  | .streamEnd => p.resume.emptyScalar t.start
  | _ => p.node true false

def documentEnd (p : Parser) : Result := do
  let t ← p.peek
  let p := if t.kind = .documentEnd then p.skip else p
  (p.expect (.document false)).emit .documentEnd t.start

def begin (p : Parser) (first : Bool) : Except SyntaxError Parser := do
  if first then
    let t ← p.peek
    pure (p.enter t.start).skip
  else
    pure p

def blockSequenceEntry (p : Parser) (first : Bool) : Result := do
  let p ← p.begin first
  let t ← p.peek
  if t.kind = .blockEntry then
    let p := p.skip
    let t' ← p.peek
    if isOneOf t' [.blockEntry, .blockEnd] then
      (p.expect (.blockSequenceEntry false)).emptyScalar t.stop
    else
      (p.later (.blockSequenceEntry false)).node true false
  else if t.kind = .blockEnd then
    p.leave.skip.emit .sequenceEnd t.start
  else
    p.failIn "while parsing a block collection" "did not find expected '-' indicator" t.start

def indentlessSequenceEntry (p : Parser) : Result := do
  let t ← p.peek
  if t.kind = .blockEntry then
    let p := p.skip
    let t' ← p.peek
    if isOneOf t' [.blockEntry, .key, .value, .blockEnd] then
      (p.expect .indentlessSequenceEntry).emptyScalar t.stop
    else
      (p.later .indentlessSequenceEntry).node true false
  else
    p.resume.emit .sequenceEnd t.start

def blockMappingKey (p : Parser) (first : Bool) : Result := do
  let p ← p.begin first
  let t ← p.peek
  if t.kind = .key then
    let p := p.skip
    let t' ← p.peek
    if isOneOf t' [.key, .value, .blockEnd] then
      (p.expect .blockMappingValue).emptyScalar t.stop
    else
      (p.later .blockMappingValue).node true true
  else if t.kind = .blockEnd then
    p.leave.skip.emit .mappingEnd t.start
  else
    p.failIn "while parsing a block mapping" "did not find expected key" t.start

def blockMappingValue (p : Parser) : Result := do
  let t ← p.peek
  if t.kind = .value then
    let p := p.skip
    let t' ← p.peek
    if isOneOf t' [.key, .value, .blockEnd] then
      (p.expect (.blockMappingKey false)).emptyScalar t.stop
    else
      (p.later (.blockMappingKey false)).node true true
  else
    (p.expect (.blockMappingKey false)).emptyScalar t.start

def comma (p : Parser) (first : Bool) (context problem : String) : Except SyntaxError Parser := do
  if first then
    pure p
  else
    let t ← p.peek
    if t.kind = .flowEntry then pure p.skip else p.failIn context problem t.start

def flowSequenceEntry (p : Parser) (first : Bool) : Result := do
  let p ← p.begin first
  let t ← p.peek
  let p ←
    if t.kind = .flowSequenceEnd then pure p
    else p.comma first "while parsing a flow sequence" "did not find expected ',' or ']'"
  let t ← p.peek
  if t.kind = .key then
    (p.skip.expect .flowPairKey).emit (.mappingStart .none) t.start
  else if t.kind = .flowSequenceEnd then
    p.leave.skip.emit .sequenceEnd t.start
  else
    (p.later (.flowSequenceEntry false)).node false false

def flowPairKey (p : Parser) : Result := do
  let t ← p.peek
  if isOneOf t [.value, .flowEntry, .flowSequenceEnd] then
    (p.skip.expect .flowPairValue).emptyScalar t.stop
  else
    (p.later .flowPairValue).node false false

def flowValue (p : Parser) (ends : List TokenKind) (next : Expectation) : Result := do
  let t ← p.peek
  if t.kind = .value then
    let p := p.skip
    let t ← p.peek
    if isOneOf t ends then
      (p.expect next).emptyScalar t.start
    else
      (p.later next).node false false
  else
    (p.expect next).emptyScalar t.start

def flowPairEnd (p : Parser) : Result := do
  let t ← p.peek
  (p.expect (.flowSequenceEntry false)).emit .mappingEnd t.start

def flowMappingKey (p : Parser) (first : Bool) : Result := do
  let p ← p.begin first
  let t ← p.peek
  let p ←
    if t.kind = .flowMappingEnd then pure p
    else p.comma first "while parsing a flow mapping" "did not find expected ',' or '\x7d'"
  let t ← p.peek
  if t.kind = .key then
    let p := p.skip
    let t ← p.peek
    if isOneOf t [.value, .flowEntry, .flowMappingEnd] then
      (p.expect .flowMappingValue).emptyScalar t.start
    else
      (p.later .flowMappingValue).node false false
  else if t.kind = .flowMappingEnd then
    p.leave.skip.emit .mappingEnd t.start
  else
    (p.later .flowMappingEmptyValue).node false false

def next (p : Parser) : Result :=
  match p.expectation with
  | .streamStart => do
    let t ← p.peek
    (p.skip.expect (.document true)).emit .streamStart t.start
  | .document implicit => p.document implicit
  | .documentContent => p.documentContent
  | .documentEnd => p.documentEnd
  | .blockNode => p.node true false
  | .blockSequenceEntry first => p.blockSequenceEntry first
  | .indentlessSequenceEntry => p.indentlessSequenceEntry
  | .blockMappingKey first => p.blockMappingKey first
  | .blockMappingValue => p.blockMappingValue
  | .flowSequenceEntry first => p.flowSequenceEntry first
  | .flowPairKey => p.flowPairKey
  | .flowPairValue => p.flowValue [.flowEntry, .flowSequenceEnd] .flowPairEnd
  | .flowPairEnd => p.flowPairEnd
  | .flowMappingKey first => p.flowMappingKey first
  | .flowMappingValue => p.flowValue [.flowEntry, .flowMappingEnd] (.flowMappingKey false)
  | .flowMappingEmptyValue => do
    let t ← p.peek
    (p.expect (.flowMappingKey false)).emptyScalar t.start
  | .nothing => .error (p.error.getD default)

def run : Nat → Parser → List Event × Option SyntaxError
  | 0, _ => ([], none)
  | fuel + 1, p =>
    if p.expectation = .nothing then ([], none)
    else
      match p.next with
      | .error e => ([], some e)
      | .ok (event, p) =>
        let (events, error) := run fuel p
        (event :: events, error)

end Parser

def events (cs : List Char) : List Event × Option SyntaxError :=
  let (tokens, error) := tokens cs
  (Parser.start tokens error).run (3 * tokens.length + 8)

end ClusterRegistration.Yaml
