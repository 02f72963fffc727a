import ClusterRegistration.Json.Error
import ClusterRegistration.Json.Basic
import ClusterRegistration.Record.Source

/-!
This module contains what reading an API object asks of its document beyond plain records: numbers,
maps with arbitrary keys, choices, and values that are kept for later.
-/

namespace ClusterRegistration.Json

class ValueSource (ν : Type) (m : Type → Type) [Monad m] extends Record.Source ν m where
  integer (low high : Int) (type : String) : ν → m Int
  object {σ : Type} (expected : String) (step : σ → String → ν → m σ) (start : σ) : ν → m σ
  choice (name : String) (names : List String) : ν → m String
  value : ν → m Json
  skip : ν → m Unit

def found : Json → Record.Found
  | .null => .unit
  | .flag b => .flag b
  | .number (.integer i) => .integer i
  | .number (.float f) => .float (Decimal.Layout.compact.text f)
  | .text s => .text s
  | .array _ => .sequence
  | .object _ => .map

def integerOf (low high : Int) (type : String) (n : Number) : Except Record.Mismatch Int :=
  match n with
  | .integer i => if low ≤ i && i ≤ high then .ok i else .error (.invalidValue (.integer i) type)
  | .float f => .error (.invalidType (.float (Decimal.Layout.compact.text f)) type)

def chosen (names : List String) (s : String) : Except Record.Mismatch String :=
  if names.contains s then .ok s else .error (.unknownVariant s names)

end ClusterRegistration.Json
