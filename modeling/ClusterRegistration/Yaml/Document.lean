import ClusterRegistration.Yaml.Event.Parser

/-!
This module contains documents: the nodes of the first document of a text, with every alias resolved
to the node that it repeats.
-/

namespace ClusterRegistration.Yaml

inductive Item where
  | alias (anchor : Nat)
  | scalar (tag : Option String) (text : String) (style : ScalarStyle)
  | sequenceStart
  | sequenceEnd
  | mappingStart
  | mappingEnd
  | nothing
deriving DecidableEq, Repr, Inhabited

abbrev Items := List (Item × Mark)

structure Document where
  items : Items
  anchors : List (Nat × Items)
  error : Option Error
  hasSuccessor : Bool

namespace Document

structure Draft where
  items : Items
  numbers : List (String × Nat)
  positions : List (Nat × Nat)
deriving Inhabited

namespace Draft

def knownNames (d : Draft) : Nat :=
  (d.numbers.map (·.1)).eraseDups.length

def note (d : Draft) (anchor : Option String) : Draft :=
  match anchor with
  | none => d
  | some name =>
    let n := d.knownNames
    { d with numbers := (name, n) :: d.numbers, positions := (n, d.items.length) :: d.positions }

def push (d : Draft) (item : Item) (mark : Mark) : Draft :=
  { d with items := (item, mark) :: d.items }

def finish (d : Draft) (error : Option Error) (hasSuccessor : Bool) : Document :=
  let items := d.items.reverse
  { items := items
    anchors := d.positions.map (fun (n, i) => (n, items.drop i))
    error := error
    hasSuccessor := hasSuccessor }

end Draft

def continues : List Event → Bool
  | ⟨.streamEnd, _⟩ :: _ => false
  | _ => true

def ofEvents (error : Option SyntaxError) : Draft → List Event → Document
  | d, [] => d.finish (error.map Error.malformed) false
  | d, ⟨kind, mark⟩ :: events =>
    match kind with
    | .streamStart => ofEvents error d events
    | .documentStart => ofEvents error d events
    | .streamEnd => (if d.items.isEmpty then d.push .nothing mark else d).finish none false
    | .documentEnd => d.finish none (continues events)
    | .alias name =>
      match d.numbers.lookup name with
      | some n => ofEvents error (d.push (.alias n) mark) events
      | none => d.finish (some (.unknownAnchor mark)) false
    | .scalar properties text style =>
      ofEvents error ((d.note properties.anchor).push (.scalar properties.tag text style) mark) events
    | .sequenceStart properties =>
      ofEvents error ((d.note properties.anchor).push .sequenceStart mark) events
    | .sequenceEnd => ofEvents error (d.push .sequenceEnd mark) events
    | .mappingStart properties =>
      ofEvents error ((d.note properties.anchor).push .mappingStart mark) events
    | .mappingEnd => ofEvents error (d.push .mappingEnd mark) events

def ofChars (cs : List Char) : Document :=
  let (events, error) := events cs
  ofEvents error default events

end Document

end ClusterRegistration.Yaml
