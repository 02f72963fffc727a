import ClusterRegistration.Json.Numeral
import ClusterRegistration.Json.Reader
import ClusterRegistration.Json.ValueSource

namespace ClusterRegistration.Json.Reader

open Record

def fuel : Reader Nat := fun c =>
  .ok (c.rest.length + 1, c)

def moreItems (first : Bool) : Reader Bool := do
  match ← peek? with
  | none => fail .eofInList
  | some b =>
    if b == 0x5D then
      pure false
    else if first then
      pure true
    else if b == 0x2C then
      advance
      match ← peek? with
      | none => fail .eofInValue
      | some b => if b == 0x5D then fail .trailingComma else pure true
    else
      fail .expectedListEnd

def moreMembers (first : Bool) : Reader Bool := do
  match ← peek? with
  | none => fail .eofInObject
  | some b =>
    if b == 0x7D then
      pure false
    else if first then
      if b == 0x22 then pure true else fail .keyNotText
    else if b == 0x2C then
      advance
      match ← peek? with
      | none => fail .eofInValue
      | some b =>
        if b == 0x22 then pure true
        else if b == 0x7D then fail .trailingComma
        else fail .keyNotText
    else
      fail .expectedObjectEnd

def items {σ : Type} (step : σ → Reader σ) : Nat → Bool → σ → Reader σ
  | 0, _, _ => fail .eofInList
  | fuel + 1, first, s => do
    if ← moreItems first then items step fuel false (← step s) else pure s

def colon : Reader Unit := do
  match ← peek? with
  | none => fail .eofInObject
  | some b => if b == 0x3A then advance else fail .expectedColon

def members {σ : Type} (step : σ → String → Reader σ) : Nat → Bool → σ → Reader σ
  | 0, _, _ => fail .eofInObject
  | fuel + 1, first, s => do
    if ← moreMembers first then
      advance
      let key ← lexeme scanText
      colon
      members step fuel false (← step s key)
    else
      pure s

def listWith {σ : Type} (step : σ → Reader σ) (start : σ) : Reader σ := do
  let s ← nested do
    advance
    items step (← fuel) true start
  advance
  pure s

def objectWith {σ : Type} (step : σ → String → Reader σ) (start : σ) : Reader σ := do
  let s ← nested do
    advance
    members step (← fuel) true start
  advance
  pure s

def numeral (first : UInt8) : Reader Number := do
  if first == 0x2D then
    advance
    lexeme (Numeral.scan false)
  else
    lexeme (Numeral.scan true)

def startsNumeral (b : UInt8) : Bool :=
  b == 0x2D || Numeral.isDigit b

def head (first : UInt8) : Reader Json := do
  if first == 0x6E then
    advance
    word "ull"
    pure .null
  else if first == 0x74 then
    advance
    word "rue"
    pure (.flag true)
  else if first == 0x66 then
    advance
    word "alse"
    pure (.flag false)
  else if startsNumeral first then
    return .number (← numeral first)
  else if first == 0x22 then
    advance
    return .text (← lexeme scanText)
  else if first == 0x5B then
    pure (.array [])
  else if first == 0x7B then
    pure (.object [])
  else
    fail .expectedValue

def valueWith : Nat → Reader Json
  | 0 => fail .eofInValue
  | fuel + 1 => do
    match ← peek? with
    | none => fail .eofInValue
    | some b =>
      if b == 0x5B then
        let js ← listWith (fun js => return (← valueWith fuel) :: js) []
        pure (.array js.reverse)
      else if b == 0x7B then
        let ms ← objectWith (fun ms key => return (key, ← valueWith fuel) :: ms) []
        pure (.object ms.reverse)
      else
        head b

def value : Reader Json := do
  valueWith (← fuel)

mutual

def skipWith : Nat → Reader Unit
  | 0 => fail .eofInValue
  | fuel + 1 => do
    match ← peek? with
    | none => fail .eofInValue
    | some b =>
      if b == 0x22 then
        advance
        lexeme (fun bs => skipText (bs.length + 1) bs)
      else if b == 0x2D then
        advance
        lexeme Numeral.skip
      else if Numeral.isDigit b then
        lexeme Numeral.skip
      else if b == 0x5B then
        advance
        match ← peek? with
        | none => fail .eofInList
        | some b => if b == 0x5D then advance else skipItems fuel
      else if b == 0x7B then
        advance
        match ← peek? with
        | none => fail .eofInObject
        | some b => if b == 0x7D then advance else skipMembers fuel
      else do
        let _ ← head b

def skipItems : Nat → Reader Unit
  | 0 => fail .eofInList
  | fuel + 1 => do
    skipWith fuel
    match ← peek? with
    | none => fail .eofInList
    | some b =>
      if b == 0x2C then do
        advance
        skipItems fuel
      else if b == 0x5D then advance
      else fail .expectedListEnd

def skipMembers : Nat → Reader Unit
  | 0 => fail .eofInObject
  | fuel + 1 => do
    match ← peek? with
    | none => fail .eofInObject
    | some b => if b == 0x22 then advance else fail .keyNotText
    lexeme (fun bs => skipText (bs.length + 1) bs)
    colon
    skipWith fuel
    match ← peek? with
    | none => fail .eofInObject
    | some b =>
      if b == 0x2C then do
        advance
        skipMembers fuel
      else if b == 0x7D then advance
      else fail .expectedObjectEnd

end

def skip : Reader Unit := do
  skipWith (2 * (← fuel))

instance : Refusal Reader where
  refuse m := throw (.mismatch m)

def unexpected {α : Type} (first : UInt8) (expected : String) : Reader α := do
  let j ← head first
  Refusal.refuse (.invalidType (found j) expected)

def start : Reader UInt8 := do
  match ← peek? with
  | none => fail .eofInValue
  | some b => pure b

def text : Reader String := do
  let b ← start
  if b == 0x22 then
    advance
    lexeme scanText
  else
    unexpected b "a string"

def flag : Reader Bool := do
  let b ← start
  if b == 0x74 then
    advance
    word "rue"
    pure true
  else if b == 0x66 then
    advance
    word "alse"
    pure false
  else
    unexpected b "a boolean"

def optional {α : Type} (read : Reader α) : Reader (Option α) := do
  match ← peek? with
  | some 0x6E =>
    advance
    word "ull"
    pure none
  | _ => some <$> read

def list {α : Type} (read : Reader α) : Reader (List α) := do
  let b ← start
  if b == 0x5B then
    List.reverse <$> listWith (fun as => return (← read) :: as) []
  else
    unexpected b "a sequence"

def object {σ : Type} (expected : String) (step : σ → String → Reader σ) (s : σ) : Reader σ := do
  let b ← start
  if b == 0x7B then objectWith step s else unexpected b expected

def leaveList : Reader Unit := do
  match ← peek? with
  | none => fail .eofInList
  | some b =>
    if b == 0x5D then
      advance
    else if b == 0x2C then
      advance
      match ← peek? with
      | some 0x5D => fail .trailingComma
      | _ => fail .trailingCharacters
    else
      fail .trailingCharacters

def fieldsInOrder {ρ : Type} (name : String) (count : Nat) :
    Nat → List (Field Unit Reader ρ) → ρ → Reader ρ
  | _, [], r => pure r
  | i, field :: fields, r => do
    if ← moreItems (i == 0) then
      let set ← field.read ()
      fieldsInOrder name count (i + 1) fields (set r)
    else if field.presence = .defaulted then
      fieldsInOrder name count (i + 1) fields r
    else
      Refusal.refuse (.invalidLength i (expectedElements name count))

def record {ρ : Type} (name : String) (fields : List (Field Unit Reader ρ)) (blank : ρ) :
    Reader ρ := do
  let b ← start
  if b == 0x5B then
    let r ← nested do
      advance
      fieldsInOrder name fields.length 0 fields blank
    leaveList
    pure r
  else
    let other (_ : String) (_ : Unit) : Reader (ρ → ρ) := do
      skip
      pure id
    let p ← object (expectedRecord name) (fun p key => p.step other fields key ())
      (Partial.start blank)
    p.finish fields

def integer (low high : Int) (type : String) : Reader Int := do
  let b ← start
  if startsNumeral b then
    Refusal.ofExcept (integerOf low high type (← numeral b))
  else
    unexpected b type

def choice (names : List String) : Reader String := do
  let b ← start
  if b == 0x22 then
    Refusal.ofExcept (chosen names (← text))
  else if b == 0x7B then
    let s ← nested do
      advance
      let b ← start
      let s ←
        if b == 0x22 then Refusal.ofExcept (chosen names (← text))
        else unexpected b "variant identifier"
      colon
      let b ← start
      if b == 0x6E then
        advance
        word "ull"
      else
        unexpected b "unit"
      pure s
    match ← peek? with
    | none => fail .eofInObject
    | some 0x7D =>
      advance
      pure s
    | some _ => fail .expectedValue
  else
    fail .expectedValue

instance : ValueSource Unit Reader where
  text _ := text
  flag _ := flag
  optional read _ := optional (read ())
  list read _ := list (read ())
  record name fields blank _ := record name fields blank
  integer low high type _ := integer low high type
  object expected step s _ := object expected (fun s key => step s key ()) s
  choice _ names _ := choice names
  value _ := value
  skip _ := skip

/--
How deep containers may be nested, and one more.
-/
def maxDepth : Nat := 128

def run {α : Type} (read : Reader α) (bs : List UInt8) : Except Error α := do
  let (a, _) ← StateT.run (do
    let a ← read
    match ← peek? with
    | none => pure a
    | some _ => fail .trailingCharacters) ⟨bs, maxDepth⟩
  pure a

end Reader

def parse (bs : List UInt8) : Except Error Json :=
  Reader.run Reader.value bs

end ClusterRegistration.Json
