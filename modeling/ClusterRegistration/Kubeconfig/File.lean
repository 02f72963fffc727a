import ClusterRegistration.Kubeconfig.Basic
import ClusterRegistration.Yaml.Printer
import ClusterRegistration.Yaml.Reader

namespace ClusterRegistration.Kubeconfig

def ofYaml (text : Bytes) : Except Error Kubeconfig :=
  match Yaml.read Kubeconfig.read text with
  | .ok c => .ok c
  | .error e => .error (.yaml e)

def toYaml (c : Kubeconfig) : String :=
  Yaml.render c.toJson

def ofFile (path : Path) (content : Except FileError Bytes) : Except Error Kubeconfig :=
  match content with
  | .ok text => (ofYaml text).map (fun c => { c with path := path })
  | .error .isADirectory => .error (.yaml (.unreadable FileError.isADirectory.message))
  | .error e => .error (.io e.message)

def load (t : FileTree) (path : Path) : Except Error Kubeconfig :=
  ofFile path (t.read path)

def save (c : Kubeconfig) (t : FileTree) (path : Path) : Except Error FileTree :=
  match t.write path (Text.Utf8.encode c.toYaml) with
  | .ok t => .ok t
  | .error e => .error (.io e.message)

structure Environment where
  kubeconfig : Option String
  home : Option String
deriving Repr, Inhabited

def Environment.defaultPath (env : Environment) : Except Error Path :=
  match env.kubeconfig with
  | some paths => .ok ⟨String.ofList ((paths.toList.splitOn ':').head?.getD [])⟩
  | none =>
    match env.home with
    | some home => .ok ((Path.join ⟨home⟩ ⟨".kube"⟩).join ⟨"config"⟩)
    | none => .error .noHomeDirectory

def Environment.load (env : Environment) (t : FileTree) : Except Error Kubeconfig := do
  Kubeconfig.load t (← env.defaultPath)

end ClusterRegistration.Kubeconfig
