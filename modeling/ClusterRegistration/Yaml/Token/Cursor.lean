import ClusterRegistration.Text.Utf8
import ClusterRegistration.Yaml.Character
import ClusterRegistration.Yaml.Error

namespace ClusterRegistration.Yaml

structure Cursor where
  rest : List Char
  mark : Mark
deriving Inhabited

namespace Cursor

def start (cs : List Char) : Cursor :=
  ⟨cs, Mark.start⟩

def width (c : Char) : Nat :=
  (Text.Utf8.encodeChar c).length

def skip (c : Cursor) : Cursor :=
  match c.rest with
  | [] => c
  | a :: rest => ⟨rest, ⟨c.mark.offset + width a, c.mark.line, c.mark.column + 1⟩⟩

def skipN : Nat → Cursor → Cursor
  | 0, c => c
  | n + 1, c => skipN n c.skip

def skipBreak (c : Cursor) : Cursor :=
  match c.rest with
  | '\r' :: '\n' :: rest => ⟨rest, ⟨c.mark.offset + 2, c.mark.line + 1, 0⟩⟩
  | a :: rest =>
    if isBreak a then ⟨rest, ⟨c.mark.offset + width a, c.mark.line + 1, 0⟩⟩ else c
  | [] => c

def breakChar (c : Char) : Char :=
  if c == '\u2028' || c == '\u2029' then c else '\n'

def takeBreak (c : Cursor) : List Char × Cursor :=
  match c.rest with
  | a :: _ => if isBreak a then ([breakChar a], c.skipBreak) else ([], c)
  | [] => ([], c)

def is (p : Char → Bool) (c : Cursor) : Bool :=
  match c.rest with
  | a :: _ => p a
  | [] => false

def atEnd (c : Cursor) : Bool :=
  c.rest.isEmpty

def skipWhile (p : Char → Bool) (c : Cursor) : Cursor :=
  c.skipN (c.rest.takeWhile p).length

def takeWhile (p : Char → Bool) (c : Cursor) : List Char × Cursor :=
  (c.rest.takeWhile p, c.skipWhile p)

def skipLine (c : Cursor) : Cursor :=
  c.skipWhile (!isBreak ·)

def skipToLineEnd (c : Cursor) : Cursor :=
  let c := c.skipWhile isBlank
  if c.is (· == '#') then c.skipLine else c

def fail {α : Type} (c : Cursor) (context : String) (began : Mark) (problem : String) :
    Except SyntaxError α :=
  .error ⟨problem, c.mark, some (context, began)⟩

end Cursor

end ClusterRegistration.Yaml
