import ClusterRegistration.Decimal.Shortest
import ClusterRegistration.Record.Mismatch

namespace ClusterRegistration

namespace Json

inductive Number where
  | integer (i : Int)
  | float (f : Float)
deriving Inhabited, Repr, BEq

def Number.text : Number → String
  | .integer i => toString i
  | .float f => Decimal.Layout.compact.text f

end Json

inductive Json where
  | null
  | flag (b : Bool)
  | number (n : Json.Number)
  | text (s : String)
  | array (items : List Json)
  | object (members : List (String × Json))
deriving Inhabited, Repr

namespace Json

def integer (i : Int) : Json :=
  .number (.integer i)

def ofOption {α : Type} (write : α → Json) : Option α → Json
  | none => .null
  | some a => write a

def get? (name : String) : Json → Option Json
  | .object members => members.lookup name
  | _ => none

def hexDigit (n : Nat) : Char :=
  if n < 10 then Char.ofNat (48 + n) else Char.ofNat (87 + n)

def unitEscape (n : Nat) : List Char :=
  ['\\', 'u', hexDigit (n / 4096 % 16), hexDigit (n / 256 % 16), hexDigit (n / 16 % 16),
    hexDigit (n % 16)]

def escapeChar (c : Char) : List Char :=
  match c with
  | '"' => ['\\', '"']
  | '\\' => ['\\', '\\']
  | '\n' => ['\\', 'n']
  | '\r' => ['\\', 'r']
  | '\t' => ['\\', 't']
  | '\x08' => ['\\', 'b']
  | '\x0c' => ['\\', 'f']
  | c => if c.toNat < 0x20 then unitEscape c.toNat else [c]

def escapeCharAscii (c : Char) : List Char :=
  let n := c.toNat
  if n < 0x7F then escapeChar c
  else if n < 0x10000 then unitEscape n
  else unitEscape (0xD800 + (n - 0x10000) / 0x400) ++ unitEscape (0xDC00 + (n - 0x10000) % 0x400)

def renderText (escape : Char → List Char) (s : String) : String :=
  String.ofList ('"' :: s.toList.flatMap escape ++ ['"'])

mutual

def renderWith (escape : Char → List Char) : Json → String
  | .null => "null"
  | .flag b => if b then "true" else "false"
  | .number n => n.text
  | .text s => renderText escape s
  | .array items => "[" ++ renderItems escape items ++ "]"
  | .object members => "\x7b" ++ renderMembers escape members ++ "\x7d"

def renderItems (escape : Char → List Char) : List Json → String
  | [] => ""
  | [j] => renderWith escape j
  | j :: js => renderWith escape j ++ "," ++ renderItems escape js

def renderMembers (escape : Char → List Char) : List (String × Json) → String
  | [] => ""
  | [(k, j)] => renderText escape k ++ ":" ++ renderWith escape j
  | (k, j) :: ms =>
    renderText escape k ++ ":" ++ renderWith escape j ++ "," ++ renderMembers escape ms

end

def render (j : Json) : String :=
  j.renderWith escapeChar

def renderAscii (j : Json) : String :=
  j.renderWith escapeCharAscii

end Json

end ClusterRegistration
