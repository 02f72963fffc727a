import ClusterRegistration.CommandLine.Error
import ClusterRegistration.Text.Similarity

namespace ClusterRegistration.CommandLine

inductive Intent where
  | run (values : List (Setting × String))
  | help
  | version
deriving DecidableEq, Repr

inductive Stop where
  | answer (i : Intent)
  | refuse (e : ArgumentError)
deriving DecidableEq, Repr

structure Progress where
  values : List (Setting × String)
  pending : Option (Setting × Option String)
deriving DecidableEq, Repr, Inhabited

namespace Progress

def start : Progress :=
  ⟨[], none⟩

def used (p : Progress) : List Setting :=
  p.values.map (·.1)

def accept (p : Progress) (s : Setting) (value : String) : Except Stop Progress :=
  if p.used.contains s then .error (.refuse (.repeated s))
  else
    let accepted : Progress := ⟨p.values ++ [(s, value)], none⟩
    if s.isNumber then
      match readNumber value with
      | .ok _ => .ok accepted
      | .error fault => .error (.refuse (.invalidNumber s value fault))
    else if s.isPath && value.isEmpty then .error (.refuse (.noValue s))
    else .ok accepted

def settle (p : Progress) : Except Stop Progress :=
  match p.pending with
  | none => .ok p
  | some (s, none) => .error (.refuse (.noValue s))
  | some (s, some value) => { p with pending := none }.accept s value

def usedAtLast (p : Progress) : List Setting :=
  match p.pending with
  | some (s, some _) => if p.used.contains s then p.used.filter (· != s) else p.used ++ [s]
  | _ => p.used

end Progress

def optionNames : List String :=
  Setting.all.map (·.option) ++ ["help", "version"]

def similarOption? (name : String) : Option String :=
  let candidates := optionNames.map (fun o => (o, Text.similarity name o))
  let similar := candidates.filter (fun (_, n, d) => 7 * d < 10 * n)
  (similar.foldl (fun (best : Option (String × Nat × Nat)) c =>
    match best with
    | none => some c
    | some (_, n, d) => if n * c.2.2 ≤ c.2.1 * d then some c else best) none).map (·.1)

def settingOf? (name : String) : Option Setting :=
  Setting.all.find? (·.option = name)

def unknownOption (p : Progress) (name : String) : Stop :=
  let similar := similarOption? name
  let used := p.usedAtLast ++ (similar.bind settingOf?).toList
  .refuse (.unexpected ("--" ++ name) similar used)

def splitOption (text : List Char) : String × Option String :=
  let name := text.takeWhile (· != '=')
  match text.dropWhile (· != '=') with
  | [] => (String.ofList name, none)
  | _ :: value => (String.ofList name, some (String.ofList value))

def readLong (p : Progress) (text : List Char) : Except Stop Progress :=
  let (name, value?) := splitOption text
  let answer (i : Intent) : Except Stop Progress :=
    match value? with
    | some value => .error (.refuse (.unexpectedValue value ("--" ++ name) p.used))
    | none => do
      let _ ← p.settle
      throw (.answer i)
  match settingOf? name, value? with
  | some s, some value => do (← p.settle).accept s value
  | some s, none => return { (← p.settle) with pending := some (s, none) }
  | none, _ =>
    if name = "help" then answer .help
    else if name = "version" then answer .version
    else .error (unknownOption p name)

def readShort (p : Progress) (flag : Char) : Except Stop Progress :=
  match flag with
  | 'h' => do
    let _ ← p.settle
    throw (.answer .help)
  | 'V' => do
    let _ ← p.settle
    throw (.answer .version)
  | c => .error (.refuse (.unexpected (String.ofList ['-', c]) none []))

def readArguments (p : Progress) : List String → Except Stop Progress
  | [] => p.settle
  | argument :: rest =>
    match argument.toList with
    | ['-', '-'] =>
      match rest with
      | [] => p.settle
      | extra :: _ => .error (.refuse (.unexpected extra none []))
    | '-' :: '-' :: text => do readArguments (← readLong p text) rest
    | '-' :: flag :: _ => do readArguments (← readShort p flag) rest
    | _ =>
      match p.pending with
      | some (s, none) => readArguments { p with pending := some (s, some argument) } rest
      | _ => .error (.refuse (.unexpected argument none []))

def withEnvironment (environment : String → Option String) (values : List (Setting × String)) :
    List (Setting × String) :=
  values ++ Setting.all.filterMap (fun s =>
    if values.any (·.1 = s) then none
    else (s.environmentName?.bind environment).map (fun value => (s, value)))

def interpret (environment : String → Option String) (arguments : List String) :
    Except ArgumentError Intent :=
  match readArguments Progress.start arguments with
  | .error (.answer i) => .ok i
  | .error (.refuse e) => .error e
  | .ok p =>
    let values := withEnvironment environment p.values
    let missing := required.filter (fun s => !values.any (·.1 = s))
    if missing.isEmpty then .ok (.run values)
    else .error (.missing missing (values.map (·.1)))

end ClusterRegistration.CommandLine
