import ClusterRegistration.Object.Kind
import ClusterRegistration.Uri

namespace ClusterRegistration

inductive Scope where
  | all
  | inNamespace (name : String)
deriving DecidableEq, Repr, Inhabited

namespace Address

def apiRoot (d : Definition) : String :=
  if d.group = "core" then "api" else "apis/" ++ d.group

def dropTrailingSlashes (host : String) : String :=
  String.ofList (host.toList.reverse.dropWhile (· == '/')).reverse

def collectionText (d : Definition) (host : String) (scope : Scope) : String :=
  let root := dropTrailingSlashes host ++ "/" ++ apiRoot d ++ "/" ++ d.version ++ "/"
  match scope with
  | .all => root ++ d.plural
  | .inNamespace ns => root ++ "namespaces/" ++ ns ++ "/" ++ d.plural

def scopeOf (k : Kind) (scope : Scope) : Scope :=
  if k.isNamespaced then scope else .all

def items (k : Kind) (host : String) (scope : Scope) : Except Uri.Error Uri :=
  Uri.parse (collectionText k.definition host (scopeOf k scope))

def item (k : Kind) (host name ns : String) : Except Uri.Error Uri :=
  Uri.parse (collectionText k.definition host (scopeOf k (.inNamespace ns)) ++ "/" ++ name)

end Address

end ClusterRegistration
