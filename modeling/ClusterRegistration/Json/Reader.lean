import ClusterRegistration.Json.Basic
import ClusterRegistration.Json.Error
import ClusterRegistration.Text.Utf8

/-!
This module contains the reader of JSON text. It consumes bytes from the front, keeps to one pass,
and reports the first thing that is wrong.
-/

namespace ClusterRegistration.Json

structure Cursor where
  rest : List UInt8
  depth : Nat

abbrev Reader := StateT Cursor (Except Error)

namespace Reader

def fail {α : Type} (m : Malformation) : Reader α :=
  throw (.malformed m)

def isBlank (b : UInt8) : Bool :=
  b == 0x20 || b == 0x0A || b == 0x09 || b == 0x0D

def peek? : Reader (Option UInt8) := fun c =>
  let rest := c.rest.dropWhile isBlank
  .ok (rest.head?, { c with rest := rest })

def advance : Reader Unit := fun c =>
  .ok ((), { c with rest := c.rest.tail })

def lexeme {α : Type} (scan : List UInt8 → Except Malformation (α × List UInt8)) : Reader α :=
  fun c =>
    match scan c.rest with
    | .ok (a, rest) => .ok (a, { c with rest := rest })
    | .error m => .error (.malformed m)

def nested {α : Type} (read : Reader α) : Reader α := fun c =>
  if c.depth ≤ 1 then
    .error (.malformed .tooDeep)
  else
    match read { c with depth := c.depth - 1 } with
    | .ok (a, c') => .ok (a, { c' with depth := c.depth })
    | .error e => .error e

def scanWord : List UInt8 → List UInt8 → Except Malformation (Unit × List UInt8)
  | [], bs => .ok ((), bs)
  | _ :: _, [] => .error .eofInValue
  | w :: ws, b :: bs => if b == w then scanWord ws bs else .error .expectedWord

def word (s : String) : Reader Unit :=
  lexeme (scanWord (Text.Utf8.encode s))

def hexValue? (b : UInt8) : Option Nat :=
  if 48 ≤ b && b ≤ 57 then some (b.toNat - 48)
  else if 65 ≤ b && b ≤ 70 then some (b.toNat - 55)
  else if 97 ≤ b && b ≤ 102 then some (b.toNat - 87)
  else none

def scanUnit : List UInt8 → Except Malformation (Nat × List UInt8)
  | a :: b :: c :: d :: rest =>
    match hexValue? a, hexValue? b, hexValue? c, hexValue? d with
    | some a, some b, some c, some d => .ok (a * 4096 + b * 256 + c * 16 + d, rest)
    | _, _, _, _ => .error .invalidEscape
  | _ => .error .eofInText

def simpleEscape? (b : UInt8) : Option UInt8 :=
  if b == 0x22 || b == 0x5C || b == 0x2F then some b
  else if b == 0x62 then some 0x08
  else if b == 0x66 then some 0x0C
  else if b == 0x6E then some 0x0A
  else if b == 0x72 then some 0x0D
  else if b == 0x74 then some 0x09
  else none

def scanUnicode (bs : List UInt8) : Except Malformation (Char × List UInt8) := do
  let (n, rest) ← scanUnit bs
  if 0xDC00 ≤ n && n ≤ 0xDFFF then
    throw .loneSurrogate
  else if 0xD800 ≤ n && n ≤ 0xDBFF then
    match rest with
    | [] => throw .eofInText
    | b :: rest =>
      if b != 0x5C then throw .unpairedSurrogate
      match rest with
      | [] => throw .eofInText
      | b :: rest =>
        if b != 0x75 then throw .unpairedSurrogate
        let (n', rest) ← scanUnit rest
        if n' < 0xDC00 || 0xDFFF < n' then throw .loneSurrogate
        pure (Char.ofNat (0x10000 + (n - 0xD800) * 0x400 + (n' - 0xDC00)), rest)
  else
    pure (Char.ofNat n, rest)

def scanTextBytes : Nat → List UInt8 → Except Malformation (List UInt8 × List UInt8)
  | 0, _ => .error .eofInText
  | _ + 1, [] => .error .eofInText
  | fuel + 1, b :: rest =>
    if b == 0x22 then .ok ([], rest)
    else if b == 0x5C then
      match rest with
      | [] => .error .eofInText
      | e :: rest =>
        if e == 0x75 then do
          let (c, rest) ← scanUnicode rest
          let (bs, rest) ← scanTextBytes fuel rest
          pure (Text.Utf8.encodeChar c ++ bs, rest)
        else
          match simpleEscape? e with
          | none => .error .invalidEscape
          | some b => do
            let (bs, rest) ← scanTextBytes fuel rest
            pure (b :: bs, rest)
    else if b < 0x20 then .error .controlCharacter
    else do
      let (bs, rest) ← scanTextBytes fuel rest
      pure (b :: bs, rest)

def scanText (bs : List UInt8) : Except Malformation (String × List UInt8) := do
  let (content, rest) ← scanTextBytes (bs.length + 1) bs
  match Text.Utf8.decode? content with
  | some s => pure (s, rest)
  | none => throw .invalidCodePoint

def skipText : Nat → List UInt8 → Except Malformation (Unit × List UInt8)
  | 0, _ => .error .eofInText
  | _ + 1, [] => .error .eofInText
  | fuel + 1, b :: rest =>
    if b == 0x22 then .ok ((), rest)
    else if b == 0x5C then
      match rest with
      | [] => .error .eofInText
      | e :: rest =>
        if e == 0x75 then do
          let (_, rest) ← scanUnit rest
          skipText fuel rest
        else
          match simpleEscape? e with
          | none => .error .invalidEscape
          | some _ => skipText fuel rest
    else if b < 0x20 then .error .controlCharacter
    else skipText fuel rest

end Reader

end ClusterRegistration.Json
