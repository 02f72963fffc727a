import ClusterRegistration.Decimal.Shortest
import ClusterRegistration.Record.Mismatch

namespace ClusterRegistration.Yaml

inductive Resolved where
  | unit
  | flag (b : Bool)
  | integer (i : Int)
  | float (f : Float)
  | text (s : String)
deriving Repr

namespace Resolved

def isNull (s : String) : Bool :=
  s = "null" || s = "Null" || s = "NULL" || s = "~"

def flag? (s : String) : Option Bool :=
  if s = "true" || s = "True" || s = "TRUE" then some true
  else if s = "false" || s = "False" || s = "FALSE" then some false
  else none

def dropSign : List Char → List Char
  | '+' :: cs => cs
  | '-' :: cs => cs
  | cs => cs

def isZeroPadded (cs : List Char) : Bool :=
  match dropSign cs with
  | '0' :: c :: cs => (c :: cs).all Char.isDigit
  | _ => false

def digit? (base : Nat) (c : Char) : Option Nat :=
  let value :=
    if '0' ≤ c && c ≤ '9' then c.toNat - '0'.toNat
    else if 'a' ≤ c && c ≤ 'z' then c.toNat - 'a'.toNat + 10
    else if 'A' ≤ c && c ≤ 'Z' then c.toNat - 'A'.toNat + 10
    else 36
  if value < base then some value else none

def natural? (base : Nat) (cs : List Char) : Option Nat :=
  if cs.isEmpty then none
  else cs.foldlM (fun n c => (digit? base c).map (fun d => n * base + d)) 0

def base? : List Char → Option (Nat × List Char)
  | '0' :: 'x' :: cs => some (16, cs)
  | '0' :: 'o' :: cs => some (8, cs)
  | '0' :: 'b' :: cs => some (2, cs)
  | _ => none

def magnitude? (cs : List Char) : Option Nat :=
  match base? cs with
  | some (base, digits) => natural? base digits
  | none => natural? 10 cs

/--
Integers have at most 128 bits. A number that is written with a sign, and not `+`, keeps to the
signed range.
-/
def integer? (s : String) : Option Int :=
  let cs := s.toList
  if isZeroPadded cs then none
  else
    match cs with
    | '-' :: cs => do
      let n ← magnitude? cs
      if n ≤ Nat.pow 2 127 then some (-(n : Int)) else none
    | '+' :: cs => do
      let n ← magnitude? cs
      if n < Nat.pow 2 128 then some n else none
    | cs => do
      let n ← magnitude? cs
      if n < Nat.pow 2 128 then some n else none

def decimal? (cs : List Char) : Option Float :=
  let whole := cs.takeWhile Char.isDigit
  let rest := cs.dropWhile Char.isDigit
  let (fraction, rest) :=
    match rest with
    | '.' :: rest => (rest.takeWhile Char.isDigit, rest.dropWhile Char.isDigit)
    | _ => ([], rest)
  if (whole ++ fraction).isEmpty then none
  else do
    let mantissa ← natural? 10 (whole ++ fraction)
    let exponent : Int ←
      match rest with
      | [] => some 0
      | c :: rest =>
        if c == 'e' || c == 'E' then
          let (negative, digits) :=
            match rest with
            | '-' :: digits => (true, digits)
            | '+' :: digits => (false, digits)
            | _ => (false, rest)
          (natural? 10 digits).map (fun (e : Nat) => if negative then -(e : Int) else e)
        else none
    let f := Decimal.toFloat mantissa (exponent - fraction.length)
    if f.isInf then none else some f

def infinity : Float := 1.0 / 0.0

def float? (s : String) : Option Float :=
  if s = ".inf" || s = ".Inf" || s = ".INF" || s = "+.inf" || s = "+.Inf" || s = "+.INF" then
    some infinity
  else if s = "-.inf" || s = "-.Inf" || s = "-.INF" then some (-infinity)
  else if s = ".nan" || s = ".NaN" || s = ".NAN" then some (0.0 / 0.0)
  else
    match s.toList with
    | '+' :: cs => decimal? cs
    | '-' :: cs => (decimal? cs).map (fun f => -f)
    | cs => decimal? cs

def ofPlain (s : String) : Resolved :=
  if s.isEmpty || isNull s then .unit
  else
    match flag? s with
    | some b => .flag b
    | none =>
      match integer? s with
      | some i => .integer i
      | none =>
        if isZeroPadded s.toList then .text s
        else
          match float? s with
          | some f => .float f
          | none => .text s

def isText : Resolved → Bool
  | .text _ => true
  | _ => false

def found : Resolved → Record.Found
  | .unit => .unit
  | .flag b => .flag b
  | .integer i =>
    if i < -9223372036854775808 then .other ("integer `" ++ toString i ++ "` as i128")
    else if 18446744073709551616 ≤ i then .other ("integer `" ++ toString i ++ "` as u128")
    else .integer i
  | .float f => .float (Decimal.Layout.plain.text f)
  | .text s => .text s

end Resolved

end ClusterRegistration.Yaml
