import ClusterRegistration.Json.Basic
import ClusterRegistration.Yaml.Character
import ClusterRegistration.Yaml.Scalar

/-!
This module contains the writer of YAML: mappings and lists in block style, one item a line, and
every text in the plainest style that reads back as that text.
-/

namespace ClusterRegistration.Yaml

namespace Text

inductive Style where
  | plain
  | singleQuoted
  | doubleQuoted
  | literal
deriving DecidableEq, Repr

def isAmbiguous (s : String) : Bool :=
  !(Resolved.ofPlain s).isText || Resolved.isZeroPadded s.toList

def hasNeighbours (p : Char → Char → Bool) : List Char → Bool
  | a :: b :: cs => p a b || hasNeighbours p (b :: cs)
  | _ => false

def isIndicator (c : Char) : Bool :=
  c ∈ ['#', ',', '[', ']', '\x7b', '\x7d', '&', '*', '!', '|', '>', '\'', '"', '%', '@', '\x60']

def startsWithIndicator (cs : List Char) : Bool :=
  match cs with
  | '-' :: '-' :: '-' :: _ => true
  | '.' :: '.' :: '.' :: _ => true
  | c :: cs => isIndicator c || ((c == '?' || c == ':' || c == '-') && endsWord cs)
  | [] => false

def hasInnerIndicator : List Char → Bool
  | [] => false
  | _ :: cs => colon cs
where
  colon : List Char → Bool
    | [] => false
    | c :: cs => (c == ':' && endsWord cs) || colon cs

def hasComment (cs : List Char) : Bool :=
  hasNeighbours (fun a b => isBlankOrBreak a && b == '#') cs

def isClean (cs : List Char) : Bool :=
  cs.all isPrintable && !hasNeighbours (fun a b => a == ' ' && isBreak b) cs

def allowsPlain (cs : List Char) : Bool :=
  isClean cs && !cs.any isBreak && !startsWithIndicator cs && !hasInnerIndicator cs &&
    !hasComment cs && cs.head? != some ' ' && cs.getLast? != some ' '

def allowsSingleQuoted (cs : List Char) : Bool :=
  isClean cs && !hasNeighbours (fun a b => isBreak a && b == ' ') cs

def allowsLiteral (cs : List Char) : Bool :=
  isClean cs && cs.getLast? != some ' '

def style (s : String) : Style :=
  let cs := s.toList
  if cs.contains '\n' then
    if allowsLiteral cs then .literal else .doubleQuoted
  else if !isAmbiguous s && allowsPlain cs then .plain
  else if allowsSingleQuoted cs then .singleQuoted
  else .doubleQuoted

def upperHexDigit (n : Nat) : Char :=
  if n < 10 then Char.ofNat (48 + n) else Char.ofNat (55 + n)

def hex : Nat → Nat → List Char
  | 0, _ => []
  | count + 1, n => hex count (n / 16) ++ [upperHexDigit (n % 16)]

def escape (c : Char) : List Char :=
  let n := c.toNat
  match c with
  | '"' => ['\\', '"']
  | '\\' => ['\\', '\\']
  | '\x00' => ['\\', '0']
  | '\x07' => ['\\', 'a']
  | '\x08' => ['\\', 'b']
  | '\t' => ['\\', 't']
  | '\n' => ['\\', 'n']
  | '\x0b' => ['\\', 'v']
  | '\x0c' => ['\\', 'f']
  | '\r' => ['\\', 'r']
  | '\x1b' => ['\\', 'e']
  | '\u0085' => ['\\', 'N']
  | '\u2028' => ['\\', 'L']
  | '\u2029' => ['\\', 'P']
  | c =>
    if isPrintable c then [c]
    else if n ≤ 0xFF then '\\' :: 'x' :: hex 2 n
    else if n ≤ 0xFFFF then '\\' :: 'u' :: hex 4 n
    else '\\' :: 'U' :: hex 8 n

def doubleQuoted (cs : List Char) : List Char :=
  '"' :: cs.flatMap escape ++ ['"']

def blanks (n : Nat) : List Char :=
  List.replicate n ' '

def singleQuotedBody (indent : Nat) : Bool → List Char → List Char
  | afterBreak, [] => if afterBreak then blanks indent else []
  | afterBreak, c :: cs =>
    if isBreak c then c :: singleQuotedBody indent true cs
    else
      (if afterBreak then blanks indent else []) ++
        (if c == '\'' then ['\'', '\''] else [c]) ++ singleQuotedBody indent false cs

def singleQuoted (indent : Nat) (cs : List Char) : List Char :=
  '\'' :: singleQuotedBody indent false cs ++ ['\'']

def literalBody (indent : Nat) : Bool → List Char → List Char
  | _, [] => []
  | afterBreak, c :: cs =>
    if isBreak c then c :: literalBody indent true cs
    else (if afterBreak then blanks indent else []) ++ c :: literalBody indent false cs

def chomping (cs : List Char) : List Char :=
  match cs.reverse with
  | [] => ['-']
  | [c] => if isBreak c then ['+'] else ['-']
  | c :: d :: _ => if !isBreak c then ['-'] else if isBreak d then ['+'] else []

def indentation (cs : List Char) : List Char :=
  match cs with
  | c :: _ => if c == ' ' || isBreak c then ['2'] else []
  | [] => []

def render (indent : Nat) (s : String) : List Char :=
  let cs := s.toList
  match style s with
  | .plain => cs ++ ['\n']
  | .singleQuoted => singleQuoted indent cs ++ ['\n']
  | .doubleQuoted => doubleQuoted cs ++ ['\n']
  | .literal =>
    '|' :: indentation cs ++ chomping cs ++ ['\n'] ++ literalBody indent true cs ++
      (if (cs.getLast?.map isBreak).getD false then [] else ['\n'])

end Text

def renderLeaf (indent : Nat) : Json → List Char
  | .null => "null\n".toList
  | .flag b => if b then "true\n".toList else "false\n".toList
  | .number n => n.text.toList ++ ['\n']
  | .text s => Text.render (indent + 2) s
  | .array _ => "[]\n".toList
  | .object _ => "\x7b\x7d\n".toList

mutual

def renderAfterKey (indent : Nat) : Json → List Char
  | .array (j :: js) => '\n' :: Text.blanks indent ++ renderItems indent (j :: js)
  | .object (m :: ms) => '\n' :: Text.blanks (indent + 2) ++ renderMembers (indent + 2) (m :: ms)
  | j => ' ' :: renderLeaf indent j

def renderAfterDash (indent : Nat) : Json → List Char
  | .array (j :: js) => ' ' :: renderItems (indent + 2) (j :: js)
  | .object (m :: ms) => ' ' :: renderMembers (indent + 2) (m :: ms)
  | j => ' ' :: renderLeaf indent j

def renderItems (indent : Nat) : List Json → List Char
  | [] => []
  | [j] => '-' :: renderAfterDash indent j
  | j :: js => '-' :: renderAfterDash indent j ++ Text.blanks indent ++ renderItems indent js

def renderMembers (indent : Nat) : List (String × Json) → List Char
  | [] => []
  | [(k, j)] => k.toList ++ ':' :: renderAfterKey indent j
  | (k, j) :: ms =>
    k.toList ++ ':' :: renderAfterKey indent j ++ Text.blanks indent ++ renderMembers indent ms

end

def render : Json → String
  | .object (m :: ms) => String.ofList (renderMembers 0 (m :: ms))
  | j => String.ofList (renderLeaf 0 j)

end ClusterRegistration.Yaml
