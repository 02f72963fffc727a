import ClusterRegistration.Json.Basic
import ClusterRegistration.Json.Error

/-!
This module contains the reading of JSON numerals. Integers are exact while 64 bits hold them; all
other numerals are floating point, computed from their leading digits and a power of ten.
-/

namespace ClusterRegistration.Json.Numeral

def isDigit (b : UInt8) : Bool :=
  48 ≤ b && b ≤ 57

def digit (b : UInt8) : Nat :=
  b.toNat - 48

structure Significand where
  value : Nat
  kept : Nat

def maxSignificand : Nat := Nat.pow 2 64 - 1

def Significand.extend (s : Significand) : List UInt8 → Significand
  | [] => s
  | d :: ds =>
    let value := s.value * 10 + digit d
    if maxSignificand < value then s else extend ⟨value, s.kept + 1⟩ ds

def power10 (n : Nat) : Float :=
  Decimal.toFloat 1 n

def scale (value : Float) (exponent : Int) : Except Malformation Float :=
  go (exponent.natAbs / 308 + 2) value exponent
where
  go : Nat → Float → Int → Except Malformation Float
    | 0, f, _ => .ok f
    | fuel + 1, f, e =>
      if e.natAbs ≤ 308 then
        if 0 ≤ e then
          let f := f * power10 e.natAbs
          if f.isInf then .error .numberOutOfRange else .ok f
        else .ok (f / power10 e.natAbs)
      else if f == 0.0 then .ok f
      else if 0 ≤ e then .error .numberOutOfRange
      else go fuel (f / power10 308) (e + 308)

def signed (positive : Bool) (f : Float) : Float :=
  if positive then f else -f

def whole (positive : Bool) (value : Nat) : Number :=
  if positive then .integer value
  else if value = 0 || Nat.pow 2 63 < value then .float (signed false (Nat.toFloat value))
  else .integer (-value)

def maxExponent : Nat := Nat.pow 2 31 - 1

def withExponent (positive : Bool) (s : Nat) (shift : Int) (negative : Bool) (ds : List UInt8) :
    Except Malformation Number :=
  let e := ds.foldl (fun e d => e * 10 + digit d) 0
  if maxExponent < e then
    if s != 0 && !negative then .error .numberOutOfRange
    else .ok (.float (signed positive 0.0))
  else do
    let f ← scale (Nat.toFloat s) (if negative then shift - e else shift + e)
    pure (.float (signed positive f))

def scanExponent (positive : Bool) (s : Nat) (shift : Int) (bs : List UInt8) :
    Except Malformation (Number × List UInt8) :=
  let (negative, bs) :=
    match bs with
    | 43 :: rest => (false, rest)
    | 45 :: rest => (true, rest)
    | _ => (false, bs)
  match bs with
  | [] => .error .eofInValue
  | b :: _ =>
    if isDigit b then do
      let n ← withExponent positive s shift negative (bs.takeWhile isDigit)
      pure (n, bs.dropWhile isDigit)
    else .error .invalidNumber

def isExponentMark (b : UInt8) : Bool :=
  b == 69 || b == 101

def scanTail (positive : Bool) (s : Significand) (dropped : Nat) (bs : List UInt8) :
    Except Malformation (Number × List UInt8) :=
  match bs with
  | 46 :: rest =>
    let fraction := rest.takeWhile isDigit
    let rest := rest.dropWhile isDigit
    if fraction.isEmpty then
      .error (if rest.isEmpty then .eofInValue else .invalidNumber)
    else
      let t := Significand.extend ⟨s.value, 0⟩ fraction
      let shift : Int := (dropped : Int) - t.kept
      match rest with
      | b :: rest' =>
        if isExponentMark b then scanExponent positive t.value shift rest'
        else do
          let f ← scale (Nat.toFloat t.value) shift
          pure (.float (signed positive f), rest)
      | [] => do
        let f ← scale (Nat.toFloat t.value) shift
        pure (.float (signed positive f), rest)
  | b :: rest =>
    if isExponentMark b then scanExponent positive s.value dropped rest
    else plain
  | [] => plain
where
  plain : Except Malformation (Number × List UInt8) :=
    if dropped = 0 then .ok (whole positive s.value, bs)
    else do
      let f ← scale (Nat.toFloat s.value) dropped
      pure (.float (signed positive f), bs)

def scan (positive : Bool) (bs : List UInt8) : Except Malformation (Number × List UInt8) :=
  match bs with
  | [] => .error .eofInValue
  | b :: rest =>
    if b == 48 then
      match rest with
      | d :: _ => if isDigit d then .error .invalidNumber else scanTail positive ⟨0, 1⟩ 0 rest
      | [] => scanTail positive ⟨0, 1⟩ 0 rest
    else if isDigit b then
      let ds := bs.takeWhile isDigit
      let s := Significand.extend ⟨0, 0⟩ ds
      scanTail positive s (ds.length - s.kept) (bs.dropWhile isDigit)
    else .error .invalidNumber

def skipDigits (bs : List UInt8) : Except Malformation (Unit × List UInt8) :=
  if (bs.takeWhile isDigit).isEmpty then .error .invalidNumber
  else .ok ((), bs.dropWhile isDigit)

def skipExponent (bs : List UInt8) : Except Malformation (Unit × List UInt8) :=
  match bs with
  | b :: rest =>
    if isExponentMark b then
      match rest with
      | 43 :: rest => skipDigits rest
      | 45 :: rest => skipDigits rest
      | _ => skipDigits rest
    else .ok ((), bs)
  | [] => .ok ((), bs)

def skip (bs : List UInt8) : Except Malformation (Unit × List UInt8) := do
  let ((), rest) ←
    match bs with
    | 48 :: d :: rest =>
      if isDigit d then Except.error Malformation.invalidNumber else Except.ok ((), d :: rest)
    | _ => skipDigits bs
  match rest with
  | 46 :: rest => do
    let ((), rest) ← skipDigits rest
    skipExponent rest
  | _ => skipExponent rest

end ClusterRegistration.Json.Numeral
