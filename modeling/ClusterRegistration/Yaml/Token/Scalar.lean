import ClusterRegistration.Yaml.Token
import ClusterRegistration.Yaml.Token.Cursor

namespace ClusterRegistration.Yaml.Scan

structure Gap where
  blanks : List Char
  first : List Char
  more : List Char
  afterBreak : Bool
deriving Inhabited

namespace Gap

def empty : Gap :=
  ⟨[], [], [], false⟩

def fold (g : Gap) : List Char :=
  if g.afterBreak then
    if g.first = ['\n'] then
      if g.more.isEmpty then [' '] else g.more
    else g.first ++ g.more
  else g.blanks

def scan (check : Cursor → Except SyntaxError Unit) :
    Nat → Gap → Cursor → Except SyntaxError (Gap × Cursor)
  | 0, g, c => .ok (g, c)
  | fuel + 1, g, c =>
    match c.rest with
    | a :: _ =>
      if isBlank a then
        if g.afterBreak then do
          check c
          scan check fuel g c.skip
        else scan check fuel { g with blanks := g.blanks ++ [a] } c.skip
      else if isBreak a then
        let (b, c') := c.takeBreak
        if g.afterBreak then scan check fuel { g with more := g.more ++ b } c'
        else scan check fuel { g with blanks := [], first := b, afterBreak := true } c'
      else .ok (g, c)
    | [] => .ok (g, c)

end Gap

def endsPlain (flow : Bool) (cs : List Char) : Bool :=
  match cs with
  | [] => true
  | ':' :: rest => endsWord rest
  | c :: _ => isBlankOrBreak c || (flow && (c ∈ [',', '[', ']', '\x7b', '\x7d']))

def isUnexpectedColon (flow : Bool) (cs : List Char) : Bool :=
  match cs with
  | ':' :: c :: _ => flow && (c ∈ [',', '?', '[', ']', '\x7b', '\x7d'])
  | _ => false

def plainWord (flow : Bool) (began : Mark) : Nat → Cursor → Except SyntaxError (List Char × Cursor)
  | 0, c => .ok ([], c)
  | fuel + 1, c =>
    match c.rest with
    | [] => .ok ([], c)
    | a :: _ =>
      if isBlankOrBreak a then .ok ([], c)
      else if isUnexpectedColon flow c.rest then
        c.fail "while scanning a plain scalar" began "found unexpected ':'"
      else if endsPlain flow c.rest then .ok ([], c)
      else do
        let (cs, c) ← plainWord flow began fuel c.skip
        pure (a :: cs, c)

structure Plain where
  text : List Char
  stop : Mark
  afterBreak : Bool

def plain (flow : Bool) (indent : Int) (began : Mark) :
    Nat → List Char → Gap → Mark → Cursor → Except SyntaxError (Plain × Cursor)
  | 0, text, g, stop, c => .ok (⟨text, stop, g.afterBreak⟩, c)
  | fuel + 1, text, g, stop, c => do
    if (c.mark.column = 0 && isDocumentIndicator c.rest) || c.is (· == '#') then
      return (⟨text, stop, g.afterBreak⟩, c)
    let (piece, c') ← plainWord flow began (c.rest.length + 1) c
    let (text, stop, g) :=
      if piece.isEmpty then (text, stop, g) else (text ++ g.fold ++ piece, c'.mark, Gap.empty)
    if !c'.is isBlankOrBreak then
      return (⟨text, stop, g.afterBreak⟩, c')
    let check (c : Cursor) : Except SyntaxError Unit :=
      if (c.mark.column : Int) < indent && c.is (· == '\t') then
        c.fail "while scanning a plain scalar" began
          "found a tab character that violates indentation"
      else .ok ()
    let (g, c') ← g.scan check (c'.rest.length + 1) c'
    if !flow && (c'.mark.column : Int) < indent then
      return (⟨text, stop, g.afterBreak⟩, c')
    plain flow indent began fuel text g stop c'

def simpleEscape? (c : Char) : Option Char :=
  match c with
  | '0' => some '\x00'
  | 'a' => some '\x07'
  | 'b' => some '\x08'
  | 't' => some '\t'
  | '\t' => some '\t'
  | 'n' => some '\n'
  | 'v' => some '\x0b'
  | 'f' => some '\x0c'
  | 'r' => some '\r'
  | 'e' => some '\x1b'
  | ' ' => some ' '
  | '"' => some '"'
  | '/' => some '/'
  | '\\' => some '\\'
  | 'N' => some '\u0085'
  | '_' => some '\u00a0'
  | 'L' => some '\u2028'
  | 'P' => some '\u2029'
  | _ => none

def escapeLength? (c : Char) : Option Nat :=
  match c with
  | 'x' => some 2
  | 'u' => some 4
  | 'U' => some 8
  | _ => none

def escape (began : Mark) (c : Cursor) : Except SyntaxError (Char × Cursor) :=
  let context := "while parsing a quoted scalar"
  match c.rest with
  | _ :: letter :: rest =>
    match simpleEscape? letter with
    | some a => .ok (a, c.skipN 2)
    | none =>
      match escapeLength? letter with
      | none => c.fail context began "found unknown escape character"
      | some count =>
        let c := c.skipN 2
        match (rest.take count).mapM hexDigit? with
        | some digits =>
          if digits.length < count then
            c.fail context began "did not find expected hexdecimal number"
          else
            let n := digits.foldl (fun n d => n * 16 + d) 0
            if h : n.isValidChar then .ok (Char.ofNatAux n h, c.skipN count)
            else c.fail context began "found invalid Unicode character escape code"
        | none => c.fail context began "did not find expected hexdecimal number"
  | _ => c.fail context began "found unknown escape character"

def quotedWord (single : Bool) (began : Mark) :
    Nat → Cursor → Except SyntaxError (List Char × Bool × Cursor)
  | 0, c => .ok ([], false, c)
  | fuel + 1, c =>
    match c.rest with
    | [] => .ok ([], false, c)
    | a :: rest =>
      if isBlankOrBreak a then .ok ([], false, c)
      else if single && a == '\'' then
        if rest.head? = some '\'' then do
          let (cs, broken, c) ← quotedWord single began fuel (c.skipN 2)
          pure ('\'' :: cs, broken, c)
        else .ok ([], false, c)
      else if !single && a == '"' then .ok ([], false, c)
      else if !single && a == '\\' then
        if !rest.isEmpty && endsLine rest then .ok ([], true, c.skip.skipBreak)
        else do
          let (e, c) ← escape began c
          let (cs, broken, c) ← quotedWord single began fuel c
          pure (e :: cs, broken, c)
      else do
        let (cs, broken, c) ← quotedWord single began fuel c.skip
        pure (a :: cs, broken, c)

def quoted (single : Bool) (began : Mark) :
    Nat → List Char → Cursor → Except SyntaxError (List Char × Cursor)
  | 0, text, c => .ok (text, c)
  | fuel + 1, text, c => do
    let context := "while scanning a quoted scalar"
    if c.mark.column = 0 && isDocumentIndicator c.rest then
      c.fail context began "found unexpected document indicator"
    if c.atEnd then
      c.fail context began "found unexpected end of stream"
    let (piece, broken, c) ← quotedWord single began (c.rest.length + 1) c
    let text := text ++ piece
    if c.is (· == (if single then '\'' else '"')) then
      return (text, c.skip)
    let (g, c) ← Gap.scan (fun _ => .ok ()) (c.rest.length + 1)
      { Gap.empty with afterBreak := broken } c
    quoted single began fuel (text ++ g.fold) c

inductive Chomping where
  | strip
  | clip
  | keep
deriving DecidableEq, Repr

def blockHeader (began : Mark) (c : Cursor) : Except SyntaxError (Chomping × Option Nat × Cursor) := do
  let (chomping, c) := chomp c
  let (increment, c') ← digit c
  match chomping with
  | some chomping => pure (chomping, increment, c')
  | none =>
    if increment.isSome then
      let (chomping, c'') := chomp c'
      pure (chomping.getD .clip, increment, c'')
    else pure (.clip, none, c')
where
  chomp (c : Cursor) : Option Chomping × Cursor :=
    match c.rest with
    | '+' :: _ => (some .keep, c.skip)
    | '-' :: _ => (some .strip, c.skip)
    | _ => (none, c)
  digit (c : Cursor) : Except SyntaxError (Option Nat × Cursor) :=
    match c.rest with
    | a :: _ =>
      if a == '0' then
        c.fail "while scanning a block scalar" began "found an indentation indicator equal to 0"
      else if a.isDigit then .ok (some (a.toNat - '0'.toNat), c.skip)
      else .ok (none, c)
    | [] => .ok (none, c)

def skipIndent (indent : Nat) (c : Cursor) : Cursor :=
  let spaces := (c.rest.takeWhile (· == ' ')).length
  if indent = 0 then c.skipN spaces
  else c.skipN (min spaces (indent - c.mark.column))

def blockBreaks (indent : Nat) (began : Mark) :
    Nat → Nat → Mark → Cursor → Except SyntaxError (List Char × Nat × Mark × Cursor)
  | 0, furthest, stop, c => .ok ([], furthest, stop, c)
  | fuel + 1, furthest, stop, c =>
    let c := skipIndent indent c
    let furthest := max furthest c.mark.column
    if (indent = 0 || c.mark.column < indent) && c.is (· == '\t') then
      c.fail "while scanning a block scalar" began
        "found a tab character where an indentation space is expected"
    else if c.is isBreak then do
      let (b, c) := c.takeBreak
      let (bs, furthest, stop, c) ← blockBreaks indent began fuel furthest c.mark c
      pure (b ++ bs, furthest, stop, c)
    else .ok ([], furthest, stop, c)

def blockLines (literal : Bool) (indent : Nat) (chomping : Chomping) (began : Mark) :
    Nat → List Char → List Char → List Char → Bool → Mark → Cursor →
      Except SyntaxError (List Char × Mark × Cursor)
  | 0, text, _, _, _, stop, c => .ok (text, stop, c)
  | fuel + 1, text, first, more, leadingBlank, stop, c =>
    if c.mark.column = indent && !c.atEnd then
      let blank := c.is isBlank
      let joint :=
        if !literal && first = ['\n'] && !leadingBlank && !blank then
          (if more.isEmpty then [' '] else []) ++ more
        else first ++ more
      let (line, c) := c.takeWhile (!isBreak ·)
      let (first, c) := c.takeBreak
      do
        let (more, _, stop, c) ← blockBreaks indent began (c.rest.length + 1) 0 c.mark c
        blockLines literal indent chomping began fuel (text ++ joint ++ line) first more blank stop c
    else
      let tail :=
        match chomping with
        | .strip => []
        | .clip => first
        | .keep => first ++ more
      .ok (text ++ tail, stop, c)

def block (literal : Bool) (outer : Int) (c : Cursor) :
    Except SyntaxError (List Char × Mark × Cursor) := do
  let began := c.mark
  let (chomping, increment, c) ← blockHeader began c.skip
  let c := c.skipToLineEnd
  if !endsLine c.rest then
    c.fail "while scanning a block scalar" began "did not find expected comment or line break"
  let c := c.skipBreak
  let known :=
    match increment with
    | some n => if 0 ≤ outer then outer.toNat + n else n
    | none => 0
  let (more, furthest, stop, c) ← blockBreaks known began (c.rest.length + 1) 0 c.mark c
  let indent := if known = 0 then max furthest (max (outer + 1).toNat 1) else known
  blockLines literal indent chomping began (c.rest.length + 1) [] [] more false stop c

end ClusterRegistration.Yaml.Scan
