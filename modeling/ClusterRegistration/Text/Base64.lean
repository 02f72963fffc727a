namespace ClusterRegistration.Text.Base64

inductive DecodeError where
  | invalidByte (offset : Nat) (byte : UInt8)
  | invalidLength
  | invalidLastSymbol (offset : Nat) (byte : UInt8)
deriving DecidableEq, Repr

def DecodeError.message : DecodeError → String
  | .invalidByte offset byte => s!"Invalid byte {byte.toNat}, offset {offset}."
  | .invalidLength => "Encoded text cannot have a 6-bit remainder."
  | .invalidLastSymbol offset byte => s!"Invalid last symbol {byte.toNat}, offset {offset}."

def symbol (n : Nat) : UInt8 :=
  if n < 26 then (65 + n).toUInt8
  else if n < 52 then (97 + (n - 26)).toUInt8
  else if n < 62 then (48 + (n - 52)).toUInt8
  else if n = 62 then 43
  else 47

def value? (b : UInt8) : Option Nat :=
  if 65 ≤ b && b ≤ 90 then some (b.toNat - 65)
  else if 97 ≤ b && b ≤ 122 then some (b.toNat - 97 + 26)
  else if 48 ≤ b && b ≤ 57 then some (b.toNat - 48 + 52)
  else if b == 43 then some 62
  else if b == 47 then some 63
  else none

def pad : UInt8 := 61

theorem value?_symbol : ∀ n < 64, value? (symbol n) = some n := by
  decide

theorem symbol_ne_pad : ∀ n < 64, symbol n ≠ pad := by
  decide

def encode : List UInt8 → List UInt8
  | [] => []
  | [a] => [symbol (a.toNat / 4), symbol (a.toNat % 4 * 16), pad, pad]
  | [a, b] =>
    [symbol (a.toNat / 4), symbol (a.toNat % 4 * 16 + b.toNat / 16), symbol (b.toNat % 16 * 4), pad]
  | a :: b :: c :: rest =>
    symbol (a.toNat / 4) :: symbol (a.toNat % 4 * 16 + b.toNat / 16)
      :: symbol (b.toNat % 16 * 4 + c.toNat / 64) :: symbol (c.toNat % 64) :: encode rest

def values (offset : Nat) : List UInt8 → Except DecodeError (List Nat × List UInt8)
  | [] => .ok ([], [])
  | b :: rest =>
    if b == pad then
      .ok ([], b :: rest)
    else
      match value? b with
      | none => .error (.invalidByte offset b)
      | some v =>
        match values (offset + 1) rest with
        | .error e => .error e
        | .ok (vs, tail) => .ok (v :: vs, tail)

def checkPadding (offset : Nat) (tail : List UInt8) : Except DecodeError Unit :=
  match tail with
  | [] => .ok ()
  | b :: _ =>
    if offset % 4 < 2 || tail.any (· != pad) || 4 < offset % 4 + tail.length then
      .error (.invalidByte offset b)
    else
      .ok ()

def bytes (offset : Nat) : List Nat → Except DecodeError (List UInt8)
  | [] => .ok []
  | [_] => .error .invalidLength
  | [a, b] =>
    if b % 16 = 0 then .ok [(a * 4 + b / 16).toUInt8]
    else .error (.invalidLastSymbol (offset + 1) (symbol b))
  | [a, b, c] =>
    if c % 4 = 0 then .ok [(a * 4 + b / 16).toUInt8, (b % 16 * 16 + c / 4).toUInt8]
    else .error (.invalidLastSymbol (offset + 2) (symbol c))
  | a :: b :: c :: d :: rest =>
    match bytes (offset + 4) rest with
    | .error e => .error e
    | .ok bs =>
      .ok ((a * 4 + b / 16).toUInt8 :: (b % 16 * 16 + c / 4).toUInt8 :: (c % 4 * 64 + d).toUInt8
        :: bs)

def checkLength (bs : List UInt8) : Except DecodeError Unit :=
  if bs.length % 4 = 1 then
    match bs.getLast? with
    | some b =>
      if b != pad && (value? b).isNone then .error (.invalidByte (bs.length - 1) b)
      else .error .invalidLength
    | none => .ok ()
  else
    .ok ()

def decode (bs : List UInt8) : Except DecodeError (List UInt8) := do
  checkLength bs
  let (vs, tail) ← values 0 bs
  checkPadding vs.length tail
  bytes 0 vs

end ClusterRegistration.Text.Base64
