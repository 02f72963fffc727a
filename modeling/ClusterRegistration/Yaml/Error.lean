import ClusterRegistration.Record.Mismatch

namespace ClusterRegistration.Yaml

structure Mark where
  offset : Nat
  line : Nat
  column : Nat
deriving DecidableEq, Repr, Inhabited

namespace Mark

def start : Mark :=
  ⟨0, 0, 0⟩

def isStart (m : Mark) : Bool :=
  m.line = 0 && m.column = 0

def text (m : Mark) : String :=
  if m.isStart then "position " ++ toString m.offset
  else "line " ++ toString (m.line + 1) ++ " column " ++ toString (m.column + 1)

end Mark

structure SyntaxError where
  problem : String
  mark : Mark
  context : Option (String × Mark)
deriving DecidableEq, Repr, Inhabited

namespace SyntaxError

def message (e : SyntaxError) : String :=
  let place :=
    if !e.mark.isStart then " at " ++ e.mark.text
    else if e.mark.offset != 0 then " at position " ++ toString e.mark.offset
    else ""
  let context :=
    match e.context with
    | none => ""
    | some (context, mark) =>
      ", " ++ context ++
        (if mark.line != e.mark.line || mark.column != e.mark.column then " at " ++ mark.text
          else "")
  e.problem ++ place ++ context

end SyntaxError

inductive Segment where
  | index (i : Nat)
  | key (name : String)
  | unnamed
deriving DecidableEq, Repr

abbrev Location := List Segment

def Location.text (l : Location) : String :=
  l.foldl (fun above segment =>
    let separated := if above.isEmpty then "" else above ++ "."
    match segment with
    | .index i => above ++ "[" ++ toString i ++ "]"
    | .key name => separated ++ name
    | .unnamed => separated ++ "?") ""

structure Spot where
  location : Location
  mark : Mark
deriving DecidableEq, Repr

inductive Error where
  | malformed (e : SyntaxError)
  | endOfText
  | secondDocument
  | unknownAnchor (mark : Mark)
  | tooManyRepetitions
  | mismatch (m : Record.Mismatch) (spot? : Option Spot)
  | unreadable (reason : String)
deriving DecidableEq, Repr

namespace Error

def locate (spot : Spot) : Error → Error
  | .mismatch m none => .mismatch m (some spot)
  | e => e

def mark? : Error → Option Mark
  | .mismatch _ (some spot) => some spot.mark
  | .unknownAnchor mark => some mark
  | _ => none

def cause : Error → String
  | .malformed e => e.message
  | .endOfText => "EOF while parsing a value"
  | .secondDocument => "deserializing from YAML containing more than one document is not supported"
  | .unknownAnchor _ => "unknown anchor"
  | .tooManyRepetitions => "repetition limit exceeded"
  | .mismatch m spot? =>
    let place :=
      match spot? with
      | some spot => if spot.location.isEmpty then "" else spot.location.text ++ ": "
      | none => ""
    place ++ m.message "unit value"
  | .unreadable reason => reason

def message (e : Error) : String :=
  match e.mark? with
  | some mark => if mark.isStart then e.cause else e.cause ++ " at " ++ mark.text
  | none => e.cause

end Error

end ClusterRegistration.Yaml
