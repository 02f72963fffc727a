import ClusterRegistration.Yaml.Token

namespace ClusterRegistration.Yaml

structure Properties where
  anchor : Option String
  tag : Option String
deriving DecidableEq, Repr, Inhabited

namespace Properties

def none : Properties :=
  ⟨.none, .none⟩

def isEmpty (p : Properties) : Bool :=
  p.anchor.isNone && p.tag.isNone

end Properties

inductive EventKind where
  | streamStart
  | streamEnd
  | documentStart
  | documentEnd
  | alias (name : String)
  | scalar (properties : Properties) (text : String) (style : ScalarStyle)
  | sequenceStart (properties : Properties)
  | sequenceEnd
  | mappingStart (properties : Properties)
  | mappingEnd
deriving DecidableEq, Repr, Inhabited

structure Event where
  kind : EventKind
  mark : Mark
deriving DecidableEq, Repr, Inhabited

end ClusterRegistration.Yaml
