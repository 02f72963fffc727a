namespace ClusterRegistration

structure Path where
  text : String
deriving DecidableEq, Repr, Inhabited

namespace Path

inductive Component where
  | root
  | current
  | parent
  | normal (name : String)
deriving DecidableEq, Repr

def pieces (p : Path) : List (List Char) :=
  p.text.toList.splitOn '/'

def isAbsolute (p : Path) : Bool :=
  p.text.toList.head? == some '/'

def component? (piece : List Char) : Option Component :=
  if piece = [] || piece = ['.'] then none
  else if piece = ['.', '.'] then some .parent
  else some (.normal (String.ofList piece))

/--
What a path says. A leading `.` of a relative path is kept; every other `.`, repeated separators
and trailing ones are dropped.
-/
def components (p : Path) : List Component :=
  let body := p.pieces.filterMap component?
  if p.isAbsolute then .root :: body
  else if p.pieces.head? = some ['.'] then .current :: body
  else body

def same (p q : Path) : Bool :=
  p.components = q.components

/--
How many characters at the front of a path are a component of their own: the root, or a leading `.`.
-/
def anchorLength (p : Path) : Nat :=
  if p.isAbsolute || p.pieces.head? = some ['.'] then 1 else 0

def dropTrailing : List Char → List Char
  | '/' :: rest => dropTrailing rest
  | ['.'] => []
  | '.' :: '/' :: rest => dropTrailing rest
  | cs => cs

def parent? (p : Path) : Option Path :=
  let anchor := p.text.toList.take p.anchorLength
  let body := dropTrailing (p.text.toList.drop p.anchorLength).reverse
  match body with
  | [] => if p.isAbsolute || anchor = [] then none else some ⟨""⟩
  | _ =>
    let rest := dropTrailing (body.dropWhile (· != '/'))
    some ⟨String.ofList (anchor ++ rest.reverse)⟩

def join (directory p : Path) : Path :=
  if p.isAbsolute then p
  else
    match directory.text.toList.getLast? with
    | none => p
    | some '/' => ⟨directory.text ++ p.text⟩
    | some _ => ⟨directory.text ++ "/" ++ p.text⟩

theorem join_of_isAbsolute {directory p : Path} (h : p.isAbsolute) : directory.join p = p := by
  simp [join, h]

def relativeTo (directory? : Option Path) (p : Path) : Path :=
  match directory? with
  | some directory => directory.join p
  | none => p

end Path

end ClusterRegistration
