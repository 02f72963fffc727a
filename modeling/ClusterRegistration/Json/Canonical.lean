import ClusterRegistration.Json.Basic
import ClusterRegistration.OrderedMap

namespace ClusterRegistration.Json

mutual

def canonical : Json → Json
  | .array items => .array (canonicalItems items)
  | .object members => .object (OrderedMap.ofList (canonicalMembers members)).entries
  | j => j

def canonicalItems : List Json → List Json
  | [] => []
  | j :: js => j.canonical :: canonicalItems js

def canonicalMembers : List (String × Json) → List (String × Json)
  | [] => []
  | (k, j) :: ms => (k, j.canonical) :: canonicalMembers ms

end

end ClusterRegistration.Json
