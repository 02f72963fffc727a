/-!
This module contains the decimal text of binary floating point numbers: the fewest digits that read
back as the number, laid out as a format decides.
-/

namespace ClusterRegistration.Decimal

/--
The finite value `significand * 2 ^ exponent`, as a double stores it.
-/
structure Binary where
  significand : Nat
  exponent : Int
  /-- The gap below a power of two is half the gap above it. -/
  narrowBelow : Bool
deriving Repr

def Binary.ofBits (bits : UInt64) : Binary :=
  let fraction : Nat := bits.toNat % Nat.pow 2 52
  let biased : Nat := bits.toNat / Nat.pow 2 52 % Nat.pow 2 11
  if biased = 0 then ⟨fraction, -1074, false⟩
  else ⟨Nat.pow 2 52 + fraction, (biased : Int) - 1075, fraction = 0 && 1 < biased⟩

structure Digits where
  digits : List Nat
  power : Int
deriving DecidableEq, Repr

def pow10 (e : Int) : Nat × Nat :=
  if 0 ≤ e then (Nat.pow 10 e.toNat, 1) else (1, Nat.pow 10 (-e).toNat)

def Binary.quarter (b : Binary) : Nat × Nat :=
  let e := b.exponent - 2
  if 0 ≤ e then (Nat.pow 2 e.toNat, 1) else (1, Nat.pow 2 (-e).toNat)

def leadingPower (num den : Nat) : Int :=
  if den ≤ num then
    ((Nat.toDigits 10 (num / den)).length : Int) - 1
  else
    -(below 400 1)
where
  below : Nat → Nat → Int
    | 0, j => j
    | fuel + 1, j => if den ≤ num * Nat.pow 10 j then j else below fuel (j + 1)

/--
The multiple of `10 ^ e` that reads back as `b` and lies nearest to it, if there is one.
-/
def Binary.onGrid? (b : Binary) (e : Int) : Option Nat :=
  let (unit, den) := b.quarter
  let (p, q) := pow10 e
  let value := 4 * b.significand * unit * q
  let low := (4 * b.significand - (if b.narrowBelow then 1 else 2)) * unit * q
  let high := (4 * b.significand + 2) * unit * q
  let step := p * den
  let closed := b.significand % 2 = 0
  let inside (c : Nat) : Bool :=
    if closed then low ≤ c * step && c * step ≤ high else low < c * step && c * step < high
  let down := value / step
  let up := down + 1
  match inside down, inside up with
  | false, false => none
  | true, false => some down
  | false, true => some up
  | true, true =>
    let below := value - down * step
    let above := up * step - value
    if below < above then some down
    else if above < below then some up
    else if down % 2 = 0 then some down
    else some up

def digitsOf (n : Nat) : List Nat :=
  ((Nat.toDigits 10 n).map (fun c => c.toNat - '0'.toNat)).reverse.dropWhile (· == 0) |>.reverse

def Binary.shortest (b : Binary) : Digits :=
  let (unit, den) := b.quarter
  search (leadingPower (4 * b.significand * unit) den) 17 1
where
  search (power : Int) : Nat → Nat → Digits
    | 0, _ => ⟨[], power⟩
    | fuel + 1, n =>
      let e := power - n + 1
      match b.onGrid? e with
      | some c => ⟨digitsOf c, e + ((Nat.toDigits 10 c).length : Int) - 1⟩
      | none => search power fuel (n + 1)

structure Layout where
  isPositional : Int → Bool

def digitChar (d : Nat) : Char :=
  Char.ofNat ('0'.toNat + d)

def Layout.render (layout : Layout) (d : Digits) : String :=
  let cs := d.digits.map digitChar
  let chars :=
    if layout.isPositional d.power then
      if 0 ≤ d.power then
        let whole := d.power.toNat + 1
        let fraction := cs.drop whole
        cs.take whole ++ List.replicate (whole - cs.length) '0' ++ ['.'] ++
          (if fraction = [] then ['0'] else fraction)
      else
        ['0', '.'] ++ List.replicate ((-d.power).toNat - 1) '0' ++ cs
    else
      let fraction := cs.drop 1
      cs.take 1 ++ (if fraction = [] then [] else '.' :: fraction) ++
        (if d.power < 0 then ['e', '-'] else ['e', '+']) ++ Nat.toDigits 10 d.power.natAbs
  String.ofList chars

def Layout.text (layout : Layout) (f : Float) : String :=
  let bits := f.toBits
  let sign := if bits.toNat / Nat.pow 2 63 = 1 then "-" else ""
  if f.isNaN then "NaN"
  else if f.isInf then sign ++ "inf"
  else if bits.toNat % Nat.pow 2 63 = 0 then sign ++ "0.0"
  else sign ++ layout.render (Binary.ofBits bits).shortest

def Layout.compact : Layout :=
  ⟨fun power => -5 ≤ power && power < 16⟩

def Layout.plain : Layout :=
  ⟨fun _ => true⟩

def toFloat (mantissa : Nat) (exponent : Int) : Float :=
  if mantissa = 0 then 0.0
  else
    let power := exponent + (Nat.toDigits 10 mantissa).length
    if power < -400 then 0.0
    else if 400 < power then 1.0 / 0.0
    else if 0 ≤ exponent then Float.ofScientific mantissa false exponent.toNat
    else Float.ofScientific mantissa true (-exponent).toNat

end ClusterRegistration.Decimal
