import ClusterRegistration.CommandLine.Setting

namespace ClusterRegistration.CommandLine

def programName : String := "kubectl-register"

def version : String := "0.1.0"

def versionText : String :=
  programName ++ " " ++ version ++ "\n"

def distinct (settings : List Setting) : List Setting :=
  settings.foldl (fun seen s => if seen.contains s then seen else seen ++ [s]) []

def required : List Setting :=
  Setting.all.filter (·.isRequired)

def usage (used : List Setting) (flags : List String) : String :=
  let options := if used.isEmpty && flags.isEmpty then ["[OPTIONS]"] else []
  let settings := (distinct (required ++ used)).map (·.text)
  "Usage: " ++ String.intercalate " " (programName :: (options ++ settings ++ flags))

def describe (environment : String → Option String) (s : Setting) : String :=
  let fallback :=
    (s.environmentName?).map (fun v => "[env: " ++ v ++ "=" ++ (environment v).getD "" ++ "]")
  let default := (s.default?).map (fun d => "[default: " ++ d ++ "]")
  let parts := [s.summary?, fallback, default].filterMap id
  "      " ++ s.text ++ "\n          " ++ String.intercalate " " parts ++ "\n"

def help (environment : String → Option String) : String :=
  "Register a cluster's credentials into another cluster\n\n" ++ usage [] [] ++ "\n\nOptions:\n" ++
    String.join (Setting.all.map (describe environment)) ++
    "  -h, --help\n          Print help\n  -V, --version\n          Print version\n"

inductive ArgumentError where
  | missing (settings used : List Setting)
  | noValue (s : Setting)
  | invalidNumber (s : Setting) (value : String) (fault : NumberFault)
  | repeated (s : Setting)
  | unexpected (argument : String) (similar? : Option String) (used : List Setting)
  | unexpectedValue (value option : String) (used : List Setting)
deriving DecidableEq, Repr

namespace ArgumentError

def cause : ArgumentError → String
  | .missing settings _ =>
    "the following required arguments were not provided:" ++
      String.join (settings.map (fun s => "\n  " ++ s.text))
  | .noValue s => "a value is required for '" ++ s.text ++ "' but none was supplied"
  | .invalidNumber s value fault =>
    "invalid value '" ++ value ++ "' for '" ++ s.text ++ "': " ++ fault.message
  | .repeated s => "the argument '" ++ s.text ++ "' cannot be used multiple times"
  | .unexpected argument _ _ => "unexpected argument '" ++ argument ++ "' found"
  | .unexpectedValue value option _ =>
    "unexpected value '" ++ value ++ "' for '" ++ option ++ "' found; no more were expected"

def tip? : ArgumentError → Option String
  | .unexpected _ (some similar) _ => some ("a similar argument exists: '--" ++ similar ++ "'")
  | _ => none

def usage? : ArgumentError → Option String
  | .missing settings used => some (usage (settings ++ used) [])
  | .noValue _ => none
  | .invalidNumber _ _ _ => none
  | .repeated _ => some (usage [] [])
  | .unexpected _ _ used => some (usage used [])
  | .unexpectedValue _ option used => some (usage used [option])

def message (e : ArgumentError) : String :=
  let tip := ((e.tip?).map (fun t => "\n\n  tip: " ++ t)).getD ""
  let usage := ((e.usage?).map (fun u => "\n\n" ++ u)).getD ""
  "error: " ++ e.cause ++ tip ++ usage ++ "\n\nFor more information, try '--help'.\n"

end ArgumentError

end ClusterRegistration.CommandLine
