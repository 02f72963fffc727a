import ClusterRegistration.Record.Mismatch

/-!
This module contains what reading a record asks of a document format, so that one description of a
record serves every format.
-/

namespace ClusterRegistration.Record

inductive Presence where
  | required
  /-- The field stays empty, but a record that is written as a list has to hold it. -/
  | optional
  | defaulted
deriving DecidableEq, Repr

/--
A field of the record `ρ`, read from nodes of type `ν`.
-/
structure Field (ν : Type) (m : Type → Type) (ρ : Type) where
  key : String
  presence : Presence
  /-- Reads the value and tells how to put it into the record. -/
  read : ν → m (ρ → ρ)

class Refusal (m : Type → Type) where
  refuse {α : Type} : Mismatch → m α

def Refusal.ofExcept {m : Type → Type} [Monad m] [Refusal m] {α : Type} : Except Mismatch α → m α
  | .ok a => pure a
  | .error e => Refusal.refuse e

/--
A document format. Nodes are read one after the other, in the order in which they are written.
-/
class Source (ν : Type) (m : Type → Type) [Monad m] extends Refusal m where
  text : ν → m String
  flag : ν → m Bool
  optional {α : Type} (read : ν → m α) : ν → m (Option α)
  list {α : Type} (read : ν → m α) : ν → m (List α)
  /-- A record of the given name; the last argument is the record before anything is read. -/
  record {ρ : Type} (name : String) (fields : List (Field ν m ρ)) (start : ρ) : ν → m ρ

variable {ν ρ α : Type} {m : Type → Type} [Monad m]

namespace Field

def required (key : String) (read : ν → m α) (set : α → ρ → ρ) : Field ν m ρ :=
  ⟨key, .required, fun node => set <$> read node⟩

def defaulted (key : String) (read : ν → m α) (set : α → ρ → ρ) : Field ν m ρ :=
  ⟨key, .defaulted, fun node => set <$> read node⟩

def optional [Source ν m] (key : String) (read : ν → m α) (set : Option α → ρ → ρ) : Field ν m ρ :=
  ⟨key, .optional, fun node => set <$> Source.optional read node⟩

end Field

structure Partial (ρ : Type) where
  seen : List String
  value : ρ

namespace Partial

def start (value : ρ) : Partial ρ :=
  ⟨[], value⟩

def step [Refusal m] (other : String → ν → m (ρ → ρ)) (fields : List (Field ν m ρ))
    (p : Partial ρ) (key : String) (node : ν) : m (Partial ρ) :=
  match fields.find? (·.key == key) with
  | none => do
    let change ← other key node
    pure { p with value := change p.value }
  | some field =>
    if p.seen.contains key then
      Refusal.refuse (.duplicateField key)
    else do
      let set ← field.read node
      pure ⟨key :: p.seen, set p.value⟩

def finish [Refusal m] (fields : List (Field ν m ρ)) (p : Partial ρ) : m ρ :=
  match fields.find? (fun field => field.presence = .required && !p.seen.contains field.key) with
  | some field => Refusal.refuse (.missingField field.key)
  | none => pure p.value

end Partial

def expectedRecord (name : String) : String :=
  "struct " ++ name

def expectedElements (name : String) (count : Nat) : String :=
  "struct " ++ name ++ " with " ++ toString count ++ (if count = 1 then " element" else " elements")

end ClusterRegistration.Record
