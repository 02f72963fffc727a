namespace ClusterRegistration

structure Uri where
  scheme : Option String
  authority : String
  path : String
  query : Option String
deriving DecidableEq, Repr, Inhabited

namespace Uri

inductive Error where
  | invalidCharacter
  | invalidAuthority
  | invalidFormat
  | tooLong
  | empty
  | schemeTooLong
deriving DecidableEq, Repr

def Error.message : Error → String
  | .invalidCharacter => "invalid uri character"
  | .invalidAuthority => "invalid authority"
  | .invalidFormat => "invalid format"
  | .tooLong => "uri too long"
  | .empty => "empty string"
  | .schemeTooLong => "scheme too long"

def maxLength : Nat := 65534

def maxSchemeLength : Nat := 64

def isSchemeChar (c : Char) : Bool :=
  c.isAlphanum || c == '+' || c == '-' || c == '.' || c == '~'

def isAuthorityChar (c : Char) : Bool :=
  c.isAlphanum || c ∈ ['!', '$', '&', '\'', '(', ')', '*', '+', ',', '-', '.', ';', '=', '_', '~']

def isPathChar (c : Char) : Bool :=
  let n := c.toNat
  n == 0x21 || n == 0x22 || (0x24 ≤ n && n ≤ 0x3B) || n == 0x3D || (0x40 ≤ n && n ≤ 0x5F) ||
    (0x61 ≤ n && n ≤ 0x7E)

def isQueryChar (c : Char) : Bool :=
  let n := c.toNat
  n == 0x21 || (0x24 ≤ n && n ≤ 0x3B) || n == 0x3D || (0x3F ≤ n && n ≤ 0x7E)

def splitScheme (cs : List Char) : Except Error (Option String × List Char) :=
  if (cs.take 7).map Char.toLower = "http://".toList then .ok (some "http", cs.drop 7)
  else if (cs.take 8).map Char.toLower = "https://".toList then .ok (some "https", cs.drop 8)
  else
    let scheme := cs.takeWhile isSchemeChar
    match cs.drop scheme.length with
    | ':' :: '/' :: '/' :: rest =>
      if cs.length ≤ 3 then .ok (none, cs)
      else if maxSchemeLength < scheme.length then .error .schemeTooLong
      else .ok (some (String.ofList scheme), rest)
    | _ => .ok (none, cs)

def endsAuthority (c : Char) : Bool :=
  c == '/' || c == '?' || c == '#'

structure AuthorityScan where
  colons : Nat := 0
  opened : Bool := false
  closed : Bool := false
  percent : Bool := false
  endsWithAt : Bool := false

/--
An address of 128 bits has eight colons with its port.
-/
def maxColons : Nat := 8

def AuthorityScan.step (s : AuthorityScan) (c : Char) : Except Error AuthorityScan :=
  let s := { s with endsWithAt := false }
  if c == ':' then
    if maxColons ≤ s.colons then .error .invalidAuthority else .ok { s with colons := s.colons + 1 }
  else if c == '[' then
    if s.percent || s.opened then .error .invalidAuthority else .ok { s with opened := true }
  else if c == ']' then
    if !s.opened || s.closed then .error .invalidAuthority
    else .ok { s with closed := true, colons := 0, percent := false }
  else if c == '@' then
    .ok { s with colons := 0, percent := false, endsWithAt := true }
  else if c == '%' then .ok { s with percent := true }
  else if isAuthorityChar c then .ok s
  else .error .invalidCharacter

def AuthorityScan.isComplete (s : AuthorityScan) : Bool :=
  s.opened == s.closed && s.colons ≤ 1 && !s.endsWithAt && !s.percent

def splitAuthority (cs : List Char) : Except Error (List Char × List Char) := do
  let authority := cs.takeWhile (!endsAuthority ·)
  let s ← authority.foldlM AuthorityScan.step {}
  if !s.isComplete then throw .invalidAuthority
  pure (authority, cs.dropWhile (!endsAuthority ·))

def pathAndQuery (cs : List Char) : Except Error (String × Option String) := do
  let path := cs.takeWhile (fun c => c != '?' && c != '#')
  if !path.all isPathChar then throw .invalidCharacter
  match cs.drop path.length with
  | '?' :: rest =>
    let query := rest.takeWhile (· != '#')
    if !query.all isQueryChar then throw .invalidCharacter
    pure (String.ofList path, some (String.ofList query))
  | _ => pure (String.ofList path, none)

def parseFull (cs : List Char) : Except Error Uri := do
  let (scheme, rest) ← splitScheme cs
  let (authority, rest) ← splitAuthority rest
  match scheme with
  | none =>
    if !rest.isEmpty then throw .invalidFormat
    pure ⟨none, String.ofList authority, "", none⟩
  | some scheme =>
    if authority.isEmpty then throw .invalidFormat
    let (path, query) ← pathAndQuery rest
    pure ⟨some scheme, String.ofList authority, path, query⟩

def parse (s : String) : Except Error Uri :=
  if maxLength < s.utf8ByteSize then .error .tooLong
  else
    match s.toList with
    | [] => .error .empty
    | ['/'] => .ok ⟨none, "", "/", none⟩
    | ['*'] => .ok ⟨none, "", "*", none⟩
    | [c] => do
      let (authority, rest) ← splitAuthority [c]
      if !rest.isEmpty then throw .invalidCharacter
      pure ⟨none, String.ofList authority, "", none⟩
    | '/' :: cs => do
      let (path, query) ← pathAndQuery ('/' :: cs)
      pure ⟨none, "", path, query⟩
    | cs => parseFull cs

def text (u : Uri) : String :=
  let scheme :=
    match u.scheme with
    | some scheme => scheme ++ "://"
    | none => ""
  let path := if u.path.isEmpty && (u.scheme.isSome || u.query.isSome) then "/" else u.path
  let query :=
    match u.query with
    | some query => "?" ++ query
    | none => ""
  scheme ++ u.authority ++ path ++ query

def host (u : Uri) : String :=
  let address := (u.authority.toList.splitOn '@').getLast?.getD []
  match address with
  | '[' :: rest => String.ofList ('[' :: rest.takeWhile (· != ']') ++ [']'])
  | _ => String.ofList (address.takeWhile (· != ':'))

end Uri

end ClusterRegistration
