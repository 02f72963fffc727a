import ClusterRegistration.Text.Quoted

namespace ClusterRegistration.Record

inductive Found where
  | unit
  | flag (b : Bool)
  | integer (i : Int)
  | float (text : String)
  | text (s : String)
  | sequence
  | map
  | other (description : String)
deriving Repr, DecidableEq

def Found.describe (unit : String) : Found → String
  | .unit => unit
  | .flag b => if b then "boolean `true`" else "boolean `false`"
  | .integer i => "integer `" ++ toString i ++ "`"
  | .float t => "floating point `" ++ t ++ "`"
  | .text s => "string " ++ Text.quoted s
  | .sequence => "sequence"
  | .map => "map"
  | .other d => d

inductive Mismatch where
  | invalidType (found : Found) (expected : String)
  | invalidValue (found : Found) (expected : String)
  | invalidLength (length : Nat) (expected : String)
  | unknownVariant (name : String) (known : List String)
  | missingField (name : String)
  | duplicateField (name : String)
deriving Repr, DecidableEq

def oneOf : List String → String
  | [] => "there are no variants"
  | [a] => "expected `" ++ a ++ "`"
  | [a, b] => "expected `" ++ a ++ "` or `" ++ b ++ "`"
  | names => "expected one of " ++ String.intercalate ", " (names.map (fun n => "`" ++ n ++ "`"))

def Mismatch.message (unit : String) : Mismatch → String
  | .invalidType found expected => "invalid type: " ++ found.describe unit ++ ", expected " ++ expected
  | .invalidValue found expected => "invalid value: " ++ found.describe unit ++ ", expected " ++ expected
  | .invalidLength n expected => "invalid length " ++ toString n ++ ", expected " ++ expected
  | .unknownVariant name known => "unknown variant `" ++ name ++ "`, " ++ oneOf known
  | .missingField name => "missing field `" ++ name ++ "`"
  | .duplicateField name => "duplicate field `" ++ name ++ "`"

end ClusterRegistration.Record
