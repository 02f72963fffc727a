import ClusterRegistration.Path

namespace ClusterRegistration

inductive FileError where
  | notFound
  | notADirectory
  | isADirectory
  | permissionDenied
  | other (reason : String)
deriving DecidableEq, Repr, Inhabited

namespace FileError

def reason : FileError → String
  | .notFound => "No such file or directory"
  | .notADirectory => "Not a directory"
  | .isADirectory => "Is a directory"
  | .permissionDenied => "Permission denied"
  | .other reason => reason

def number? : FileError → Option Nat
  | .notFound => some 2
  | .permissionDenied => some 13
  | .notADirectory => some 20
  | .isADirectory => some 21
  | .other _ => none

def message (e : FileError) : String :=
  match e.number? with
  | some n => e.reason ++ " (os error " ++ toString n ++ ")"
  | none => e.reason

end FileError

abbrev Bytes := List UInt8

inductive FileEntry where
  | file (content : Bytes)
  | directory
deriving DecidableEq, Repr, Inhabited

/--
Files and directories, by the names that lead to them from the root, and the directory at which relative
paths begin. Directories that lead to what is listed, or to that one, need not be listed.
-/
structure FileTree where
  entries : List (List String × FileEntry)
  directory : List String
deriving Inhabited

namespace FileTree

def below (directory : List String) : FileTree :=
  ⟨[], directory⟩

def empty : FileTree :=
  below []

def entry? (t : FileTree) (place : List String) : Option FileEntry :=
  match t.entries.lookup place with
  | some e => some e
  | none =>
    if place.isPrefixOf t.directory || t.entries.any (fun (p, _) => place.isPrefixOf p) then
      some .directory
    else none

/--
Walk along the pieces of a path. Every piece is looked up in a directory, and the root lies in itself.
-/
def walk (t : FileTree) : List String → List (List Char) → Except FileError (List String)
  | place, [] => .ok place
  | place, piece :: pieces =>
    match t.entry? place with
    | none => .error .notFound
    | some (.file _) => .error .notADirectory
    | some .directory =>
      if piece = [] || piece = ['.'] then walk t place pieces
      else if piece = ['.', '.'] then walk t place.dropLast pieces
      else walk t (place ++ [String.ofList piece]) pieces

def origin (t : FileTree) (p : Path) : List String :=
  if p.isAbsolute then [] else t.directory

def locate (t : FileTree) (p : Path) : Except FileError (List String) :=
  if p.text.toList.contains '\x00' then
    .error (.other "file name contained an unexpected NUL byte")
  else if p.text.isEmpty then .error .notFound
  else t.walk (t.origin p) p.pieces

def read (t : FileTree) (p : Path) : Except FileError Bytes := do
  match t.entry? (← t.locate p) with
  | some (.file content) => pure content
  | some .directory => throw .isADirectory
  | none => throw .notFound

def put (t : FileTree) (place : List String) (e : FileEntry) : FileTree :=
  { t with entries := (place, e) :: t.entries.filter (fun (p, _) => p != place) }

def write (t : FileTree) (p : Path) (content : Bytes) : Except FileError FileTree := do
  let place ← t.locate p
  match t.entry? place with
  | some .directory => throw .isADirectory
  | some (.file _) => pure (t.put place (.file content))
  | none =>
    if p.pieces.getLast? = some [] || p.pieces.getLast? = some ['.'] then throw .isADirectory
    match t.entry? place.dropLast with
    | some .directory => pure (t.put place (.file content))
    | some (.file _) => throw .notADirectory
    | none => throw .notFound

def enter (place : List String) : Path.Component → List String
  | .root => []
  | .current => place
  | .parent => place.dropLast
  | .normal name => place ++ [name]

def placeOf (t : FileTree) (p : Path) : List String :=
  p.components.foldl enter t.directory

def insert (t : FileTree) (p : Path) (e : FileEntry) : FileTree :=
  t.put (t.placeOf p) e

def erase (t : FileTree) (p : Path) : FileTree :=
  { t with entries := t.entries.filter (fun (place, _) => place != t.placeOf p) }

end FileTree

end ClusterRegistration
