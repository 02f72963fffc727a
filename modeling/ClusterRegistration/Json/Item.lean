import ClusterRegistration.Json.ValueSource

namespace ClusterRegistration.Json

inductive Origin where
  | whole
  /-- A value set aside while its object was read. -/
  | buffered
deriving DecidableEq, Repr

structure Item where
  origin : Origin
  value : Json

namespace Item

open Record

def whole (j : Json) : Item :=
  ⟨.whole, j⟩

def buffered (j : Json) : Item :=
  ⟨.buffered, j⟩

abbrev Reader := Except Mismatch

instance : Refusal Reader where
  refuse := .error

def mismatch {α : Type} (item : Item) (expected : String) : Reader α :=
  .error (.invalidType (found item.value) expected)

def text (item : Item) : Reader String :=
  match item.value with
  | .text s => .ok s
  | _ => item.mismatch "a string"

def flag (item : Item) : Reader Bool :=
  match item.value with
  | .flag b => .ok b
  | _ => item.mismatch "a boolean"

def optional {α : Type} (read : Item → Reader α) (item : Item) : Reader (Option α) :=
  match item.value with
  | .null => .ok none
  | _ => some <$> read item

def list {α : Type} (read : Item → Reader α) (item : Item) : Reader (List α) :=
  match item.value with
  | .array items => items.mapM (fun j => read ⟨item.origin, j⟩)
  | _ => item.mismatch "a sequence"

def object {σ : Type} (expected : String) (step : σ → String → Item → Reader σ) (start : σ)
    (item : Item) : Reader σ :=
  match item.value with
  | .object members => members.foldlM (fun s (k, j) => step s k ⟨item.origin, j⟩) start
  | _ => item.mismatch expected

def surplus {α : Type} (origin : Origin) (total wanted : Nat) : Reader α :=
  match origin with
  | .whole => Refusal.refuse (.invalidLength total "fewer elements in array")
  | .buffered =>
    Refusal.refuse (.invalidLength total
      (toString wanted ++ (if wanted = 1 then " element in sequence" else " elements in sequence")))

def fieldsInOrder {ρ : Type} (name : String) (all : List (Field Item Reader ρ)) (origin : Origin)
    (total : Nat) : Nat → List (Field Item Reader ρ) → List Json → ρ → Reader ρ
  | _, [], [], r => .ok r
  | _, [], _ :: _, _ => surplus origin total all.length
  | i, field :: fields, [], r =>
    if field.presence = .defaulted then fieldsInOrder name all origin total (i + 1) fields [] r
    else Refusal.refuse (.invalidLength i (expectedElements name all.length))
  | i, field :: fields, j :: js, r => do
    let set ← field.read ⟨origin, j⟩
    fieldsInOrder name all origin total (i + 1) fields js (set r)

def record {ρ : Type} (name : String) (fields : List (Field Item Reader ρ)) (start : ρ)
    (item : Item) : Reader ρ :=
  match item.value with
  | .array items => fieldsInOrder name fields item.origin items.length 0 fields items start
  | _ => do
    let p ← object (expectedRecord name) (Partial.step (fun _ _ => pure id) fields)
      (Partial.start start) item
    p.finish fields

def integer (low high : Int) (type : String) (item : Item) : Reader Int :=
  match item.value with
  | .number n => integerOf low high type n
  | _ => item.mismatch type

def choice (name : String) (names : List String) (item : Item) : Reader String :=
  match item.value with
  | .text s => chosen names s
  | .object [(k, j)] => do
    let k ← chosen names k
    match j with
    | .null => pure k
    | _ => mismatch ⟨item.origin, j⟩ "unit"
  | .object _ => Refusal.refuse (.invalidValue .map "map with a single key")
  | _ => item.mismatch (if item.origin = .whole then "string or map" else "enum " ++ name)

instance : ValueSource Item Reader where
  text := text
  flag := flag
  optional := optional
  list := list
  record := record
  integer := integer
  object := object
  choice := choice
  value item := .ok item.value
  skip _ := .ok ()

end Item

end ClusterRegistration.Json
