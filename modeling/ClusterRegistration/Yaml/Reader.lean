import ClusterRegistration.Record.Source
import ClusterRegistration.Yaml.Document
import ClusterRegistration.Yaml.Scalar

namespace ClusterRegistration.Yaml

open Record

structure Progress where
  rest : Items
  jumps : Nat

abbrev Reader := ReaderT Document (StateT Progress (Except Error))

namespace Reader

instance : Refusal Reader where
  refuse m := throw (.mismatch m none)

def peek : Reader (Item × Mark) := do
  match (← get).rest with
  | next :: _ => pure next
  | [] => throw ((← read).error.getD .endOfText)

def advance : Reader Unit :=
  modify (fun p => { p with rest := p.rest.tail })

def fuel : Reader Nat :=
  return (← get).rest.length + 1

/--
Read the node of an anchor, and go on after its alias. The more items a document has, the more
aliases may be followed.
-/
def follow {α : Type} (anchor : Nat) (read : Reader α) : Reader α := do
  let document ← MonadReader.read
  let p ← get
  if document.items.length * 100 < p.jumps + 1 then
    throw .tooManyRepetitions
  set (⟨(document.anchors.lookup anchor).getD [], p.jumps + 1⟩ : Progress)
  let a ← read
  modify (fun p' => { p' with rest := p.rest })
  pure a

def located {α : Type} (location : Location) (mark : Mark) (read : Reader α) : Reader α :=
  tryCatch read (fun e => throw (e.locate ⟨location, mark⟩))

def node {α : Type} (location : Location) (read : Item → Reader α) : Reader α := do
  let (item, mark) ← peek
  advance
  match item with
  | .alias anchor =>
    follow anchor do
      let (item, mark) ← peek
      advance
      located location mark (read item)
  | item => located location mark (read item)

def tagOf (name : String) : String :=
  "tag:yaml.org,2002:" ++ name

def scalarMismatch (tag : Option String) (s : String) (style : ScalarStyle) (expected : String) :
    Mismatch :=
  let plain := .invalidType (Resolved.ofPlain s).found expected
  let resolved (r? : Option Resolved) (name : String) :=
    match r? with
    | some r => .invalidType r.found expected
    | none => .invalidValue (.text s) name
  match tag with
  | some t =>
    if t = tagOf "bool" then resolved ((Resolved.flag? s).map .flag) "a boolean"
    else if t = tagOf "int" then resolved ((Resolved.integer? s).map .integer) "an integer"
    else if t = tagOf "float" then resolved ((Resolved.float? s).map .float) "a float"
    else if t = tagOf "null" then
      resolved (if Resolved.isNull s then some .unit else none) "null"
    else if t.startsWith "!" && style = .plain then plain
    else .invalidType (.text s) expected
  | none => if style = .plain then plain else .invalidType (.text s) expected

def unexpected {α : Type} (item : Item) (expected : String) : Reader α :=
  match item with
  | .scalar tag s style => Refusal.refuse (scalarMismatch tag s style expected)
  | .mappingStart => Refusal.refuse (.invalidType .map expected)
  | .nothing => throw .endOfText
  | _ => Refusal.refuse (.invalidType .sequence expected)

def textAs (expected : String) (location : Location) : Reader String :=
  node location fun item =>
    match item with
    | .scalar _ s _ => pure s
    | item => unexpected item expected

def flag (location : Location) : Reader Bool :=
  node location fun item =>
    match item with
    | .scalar tag s style =>
      if style = .plain || (style = .literal && tag = some (tagOf "bool")) then
        match Resolved.flag? s with
        | some b => pure b
        | none => unexpected item "a boolean"
      else unexpected item "a boolean"
    | item => unexpected item "a boolean"

def isAbsent : Item → Except Mismatch Bool
  | .scalar tag s style =>
    if style != .plain then .ok false
    else
      match tag with
      | some t =>
        if t != tagOf "null" then .ok false
        else if Resolved.isNull s then .ok true
        else .error (.invalidValue (.text s) "null")
      | none => .ok (s.isEmpty || Resolved.isNull s)
  | .nothing => .ok true
  | _ => .ok false

def optional {α : Type} (read : Location → Reader α) (location : Location) :
    Reader (Option α) := do
  let (item, _) ← peek
  match item with
  | .alias anchor =>
    advance
    follow anchor here
  | _ => here
where
  here : Reader (Option α) := do
    let (item, _) ← peek
    if ← Refusal.ofExcept (isAbsent item) then
      advance
      pure none
    else
      some <$> read location

def isEmptyCollection : Item → Bool
  | .scalar _ s style => s.isEmpty && style = .plain
  | .nothing => true
  | _ => false

def entries {α : Type} (read : Location → Reader α) (location : Location) :
    Nat → Nat → Reader (List α)
  | 0, _ => throw .endOfText
  | fuel + 1, i => do
    let (item, _) ← peek
    if item = .sequenceEnd then
      advance
      pure []
    else
      let a ← read (location ++ [.index i])
      return a :: (← entries read location fuel (i + 1))

def list {α : Type} (read : Location → Reader α) (location : Location) : Reader (List α) :=
  node location fun item => do
    if item = .sequenceStart then entries read location (← fuel) 0
    else if isEmptyCollection item then pure []
    else unexpected item "a sequence"

def skip : Nat → Nat → Reader Unit
  | 0, _ => throw .endOfText
  | fuel + 1, depth => do
    let (item, _) ← peek
    advance
    let depth :=
      match item with
      | .sequenceStart => depth + 1
      | .mappingStart => depth + 1
      | .sequenceEnd => depth - 1
      | .mappingEnd => depth - 1
      | _ => depth
    if depth = 0 then pure () else skip fuel depth

def members {σ : Type} (step : σ → String → Location → Reader σ) (location : Location) :
    Nat → σ → Reader σ
  | 0, _ => throw .endOfText
  | fuel + 1, s => do
    let (item, _) ← peek
    if item = .mappingEnd then
      advance
      pure s
    else
      let segment :=
        match item with
        | .scalar _ key _ => Segment.key key
        | _ => Segment.unnamed
      let key ← textAs "field identifier" location
      let s ← step s key (location ++ [segment])
      members step location fuel s

def record {ρ : Type} (name : String) (fields : List (Field Location Reader ρ)) (start : ρ)
    (location : Location) : Reader ρ :=
  node location fun item => do
    let other (_ : String) (_ : Location) : Reader (ρ → ρ) := do
      skip (← fuel) 0
      pure id
    if item = .mappingStart then
      let p ← members (Partial.step other fields) location (← fuel) (Partial.start start)
      p.finish fields
    else if isEmptyCollection item then
      (Partial.start start).finish fields
    else
      unexpected item (expectedRecord name)

instance : Source Location Reader where
  text := textAs "a string"
  flag := flag
  optional := optional
  list := list
  record := record

def run {α : Type} (read : Location → Reader α) (cs : List Char) : Except Error α := do
  let document := Document.ofChars cs
  let (a, _) ← StateT.run (ReaderT.run (read []) document) ⟨document.items, 0⟩
  match document.error with
  | some e => throw e
  | none => if document.hasSuccessor then throw Error.secondDocument else pure a

end Reader

def sequenceWidth (lead : UInt8) : Nat :=
  if lead < 0x80 then 1
  else if lead < 0xC0 then 0
  else if lead < 0xE0 then 2
  else if lead < 0xF0 then 3
  else if lead < 0xF8 then 4
  else 0

def decode : Nat → Nat → List UInt8 → Except SyntaxError (List Char)
  | 0, _, _ => .ok []
  | _ + 1, _, [] => .ok []
  | fuel + 1, offset, b :: bs => do
    let fail {α : Type} (problem : String) (offset : Nat) : Except SyntaxError α :=
      .error ⟨problem, ⟨offset, 0, 0⟩, none⟩
    let width := sequenceWidth b
    if width = 0 then
      fail "invalid leading UTF-8 octet" offset
    let trail := bs.take (width - 1)
    if trail.length < width - 1 then
      fail "incomplete UTF-8 octet sequence" offset
    match trail.findIdx? (!Text.Utf8.isTrail ·) with
    | some i => fail "invalid trailing UTF-8 octet" (offset + i + 1)
    | none =>
      match Text.Utf8.step (b :: bs) with
      | .char c rest =>
        if isAllowed c then
          return c :: (← decode fuel (offset + width) rest)
        else
          fail "control characters are not allowed" offset
      | _ =>
        let n := trail.foldl (fun n b => n * 64 + b.toNat % 64) (b.toNat % Nat.pow 2 (7 - width))
        if n < 0x80 || (width = 3 && n < 0x800) || (width = 4 && n < 0x10000) then
          fail "invalid length of a UTF-8 sequence" offset
        else
          fail "invalid Unicode character" offset

def read {α : Type} (read : Location → Reader α) (bs : List UInt8) : Except Error α :=
  match decode (bs.length + 1) 0 bs with
  | .ok cs => Reader.run read cs
  | .error e => .error (.malformed e)

end ClusterRegistration.Yaml
