import ClusterRegistration.Yaml.Token
import ClusterRegistration.Yaml.Token.Cursor

namespace ClusterRegistration.Yaml.Scan

def anchor (context : String) (c : Cursor) : Except SyntaxError (String × Cursor) := do
  let began := c.mark
  let (name, c) := c.skip.takeWhile isWordChar
  let mayFollow :=
    match c.rest with
    | [] => true
    | a :: _ => isBlankOrBreak a || (a ∈ ['?', ':', ',', ']', '\x7d', '%', '@', '\x60'])
  if name.isEmpty || !mayFollow then
    c.fail context began "did not find expected alphabetic or numeric character"
  pure (String.ofList name, c)

def tagHandle (inDirective : Bool) (began : Mark) (c : Cursor) :
    Except SyntaxError (List Char × Cursor) := do
  if !c.is (· == '!') then
    c.fail (if inDirective then "while scanning a directive" else "while scanning a tag") began
      "did not find expected '!'"
  let (word, c) := c.skip.takeWhile isWordChar
  if c.is (· == '!') then
    return ('!' :: word ++ ['!'], c.skip)
  if inDirective && !word.isEmpty then
    c.fail "while parsing a tag directive" began "did not find expected '!'"
  pure ('!' :: word, c)

def isUriChar (brackets : Bool) (c : Char) : Bool :=
  isWordChar c || c ∈ [';', '/', '?', ':', '@', '&', '=', '+', '$', '.', '%', '!', '~', '*', '\'', '(', ')']
    || (brackets && c ∈ [',', '[', ']'])

def sequenceLength (lead : Nat) : Nat :=
  if lead < 0x80 then 1
  else if lead / 32 = 6 then 2
  else if lead / 16 = 14 then 3
  else if lead / 8 = 30 then 4
  else 0

def uriContext (inDirective : Bool) : String :=
  if inDirective then "while parsing a %TAG directive" else "while parsing a tag"

def uriEscapes (inDirective : Bool) (began : Mark) :
    Nat → Nat → Cursor → Except SyntaxError (List UInt8 × Cursor)
  | 0, _, c => .ok ([], c)
  | fuel + 1, left, c =>
    let context := uriContext inDirective
    match c.rest with
    | '%' :: a :: b :: _ =>
      match hexDigit? a, hexDigit? b with
      | some a, some b => do
        let octet := a * 16 + b
        let left ←
          if left = 0 then
            let n := sequenceLength octet
            if n = 0 then c.fail context began "found an incorrect leading UTF-8 octet" else pure n
          else if octet / 64 = 2 then pure left
          else c.fail context began "found an incorrect trailing UTF-8 octet"
        let c := c.skipN 3
        if left ≤ 1 then
          return ([octet.toUInt8], c)
        let (bs, c) ← uriEscapes inDirective began fuel (left - 1) c
        pure (octet.toUInt8 :: bs, c)
      | _, _ => c.fail context began "did not find URI escaped octet"
    | _ => c.fail context began "did not find URI escaped octet"

def uriBytes (brackets inDirective : Bool) (began : Mark) :
    Nat → Cursor → Except SyntaxError (List UInt8 × Cursor)
  | 0, c => .ok ([], c)
  | fuel + 1, c =>
    match c.rest with
    | a :: _ =>
      if !isUriChar brackets a then .ok ([], c)
      else do
        let (bs, c) ←
          if a == '%' then uriEscapes inDirective began 5 0 c
          else pure (Text.Utf8.encodeChar a, c.skip)
        let (bs', c) ← uriBytes brackets inDirective began fuel c
        pure (bs ++ bs', c)
    | [] => .ok ([], c)

def tagUri (brackets inDirective : Bool) (head : List Char) (began : Mark) (c : Cursor) :
    Except SyntaxError (String × Cursor) := do
  let (bs, c') ← uriBytes brackets inDirective began (c.rest.length + 1) c
  if head.isEmpty && bs.isEmpty then
    c'.fail (uriContext inDirective) began "did not find expected tag URI"
  pure (String.ofList (head.drop 1) ++ Text.Utf8.decodeLossy bs, c')

def tag (flow : Bool) (c : Cursor) : Except SyntaxError ((String × String) × Cursor) := do
  let began := c.mark
  let context := "while scanning a tag"
  let (parts, c) ←
    match c.rest with
    | _ :: '<' :: _ => do
      let (suffix, c) ← tagUri true false [] began (c.skipN 2)
      if !c.is (· == '>') then
        c.fail context began "did not find the expected '>'"
      pure (("", suffix), c.skip)
    | _ => do
      let (handle, c) ← tagHandle false began c
      if 2 ≤ handle.length && handle.getLast? = some '!' then
        let (suffix, c) ← tagUri false false [] began c
        pure ((String.ofList handle, suffix), c)
      else
        let (suffix, c) ← tagUri false false handle began c
        if suffix.isEmpty then pure (("", "!"), c) else pure (("!", suffix), c)
  if !(flow && c.is (· == ',')) && !endsWord c.rest then
    c.fail context began "did not find expected whitespace or line break"
  pure (parts, c)

def versionNumber (began : Mark) (c : Cursor) : Except SyntaxError (Nat × Cursor) := do
  let context := "while scanning a %YAML directive"
  let (digits, c') := c.takeWhile Char.isDigit
  if 9 < digits.length then
    (c.skipN 9).fail context began "found extremely long version number"
  if digits.isEmpty then
    c.fail context began "did not find expected version number"
  pure (digits.foldl (fun n d => n * 10 + (d.toNat - '0'.toNat)) 0, c')

def directive (c : Cursor) : Except SyntaxError (TokenKind × Mark × Cursor) := do
  let began := c.mark
  let context := "while scanning a directive"
  let (name, c) := c.skip.takeWhile isWordChar
  if name.isEmpty then
    c.fail context began "could not find expected directive name"
  if !endsWord c.rest then
    c.fail context began "found unexpected non-alphabetical character"
  let (kind, c) ←
    if name = "YAML".toList then do
      let (major, c) ← versionNumber began (c.skipWhile isBlank)
      if !c.is (· == '.') then
        c.fail "while scanning a %YAML directive" began
          "did not find expected digit or '.' character"
      let (minor, c) ← versionNumber began c.skip
      pure (TokenKind.versionDirective major minor, c)
    else if name = "TAG".toList then do
      let (handle, c) ← tagHandle true began (c.skipWhile isBlank)
      if !c.is isBlank then
        c.fail "while scanning a %TAG directive" began "did not find expected whitespace"
      let (tagPrefix, c) ← tagUri true true [] began (c.skipWhile isBlank)
      if !endsWord c.rest then
        c.fail "while scanning a %TAG directive" began
          "did not find expected whitespace or line break"
      pure (TokenKind.tagDirective (String.ofList handle) tagPrefix, c)
    else
      c.fail context began "found unknown directive name"
  let stop := c.mark
  let c := c.skipToLineEnd
  if !endsLine c.rest then
    c.fail context began "did not find expected comment or line break"
  pure (kind, stop, c.skipBreak)

end ClusterRegistration.Yaml.Scan
