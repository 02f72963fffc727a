import ClusterRegistration.Command.Builtin

namespace ClusterRegistration.Command

inductive Sink where
  | stdout
  | stderr
  | nowhere
deriving DecidableEq, Repr

inductive Token where
  | word (text : String)
  | semicolon
  | and
  | or
  | redirect (output : Nat) (sink : Sink)
deriving DecidableEq, Repr

inductive Quoting where
  | plain
  | single
  | double
deriving DecidableEq, Repr

def tokens : Quoting → Option (List Char) → List Char → Option (List Token)
  | .plain, word, [] => some (flush word)
  | _, _, [] => none
  | .single, word, c :: cs =>
    if c = '\'' then tokens .plain word cs else tokens .single (some (c :: word.getD [])) cs
  | .double, word, '\\' :: c :: cs =>
    if c = '\n' then tokens .double word cs
    else if ['$', '\x60', '"', '\\'].contains c then tokens .double (some (c :: word.getD [])) cs
    else tokens .double (some (c :: '\\' :: word.getD [])) cs
  | .double, word, c :: cs =>
    if c = '"' then tokens .plain word cs else tokens .double (some (c :: word.getD [])) cs
  | .plain, word, '\\' :: c :: cs =>
    if c = '\n' then tokens .plain word cs else tokens .plain (some (c :: word.getD [])) cs
  | .plain, word, '&' :: '&' :: cs => (tokens .plain none cs).map (flush word ++ .and :: ·)
  | .plain, word, '|' :: '|' :: cs => (tokens .plain none cs).map (flush word ++ .or :: ·)
  | .plain, word, '>' :: '&' :: '2' :: cs =>
    (tokens .plain none cs).map (redirection word .stderr ++ ·)
  | .plain, word, '>' :: '&' :: '1' :: cs =>
    (tokens .plain none cs).map (redirection word .stdout ++ ·)
  | .plain, word, '>' :: cs => (tokens .plain none cs).map (dropTarget (redirection word .nowhere) ·)
  | .plain, word, c :: cs =>
    if c = '\'' then tokens .single (some (word.getD [])) cs
    else if c = '"' then tokens .double (some (word.getD [])) cs
    else if c = ';' || c = '\n' then (tokens .plain none cs).map (flush word ++ .semicolon :: ·)
    else if c = ' ' || c = '\t' then (tokens .plain none cs).map (flush word ++ ·)
    else tokens .plain (some (c :: word.getD [])) cs
where
  flush : Option (List Char) → List Token
    | none => []
    | some cs => [.word (String.ofList cs.reverse)]
  redirection (word : Option (List Char)) (sink : Sink) : List Token :=
    match word with
    | some ['1'] => [.redirect 1 sink]
    | some ['2'] => [.redirect 2 sink]
    | word => flush word ++ [.redirect 1 sink]
  dropTarget (redirect : List Token) (rest : List Token) : List Token :=
    match rest with
    | .word _ :: rest => redirect ++ rest
    | rest => redirect ++ rest

inductive Condition where
  | always
  | onSuccess
  | onFailure
deriving DecidableEq, Repr

def Condition.holds (before : Output) : Condition → Bool
  | .always => true
  | .onSuccess => before.success
  | .onFailure => !before.success

structure Line where
  condition : Condition
  words : List String
  redirects : List (Nat × Sink)
deriving DecidableEq, Repr

def lines : Line → List Token → List Line
  | line, [] => [line]
  | line, .word w :: ts => lines { line with words := line.words ++ [w] } ts
  | line, .redirect n sink :: ts => lines { line with redirects := line.redirects ++ [(n, sink)] } ts
  | line, .semicolon :: ts => line :: lines ⟨.always, [], []⟩ ts
  | line, .and :: ts => line :: lines ⟨.onSuccess, [], []⟩ ts
  | line, .or :: ts => line :: lines ⟨.onFailure, [], []⟩ ts

def sinks : List (Nat × Sink) → Sink × Sink → Sink × Sink
  | [], s => s
  | (n, sink) :: rest, (one, two) =>
    let sink :=
      match sink with
      | .stdout => one
      | .stderr => two
      | .nowhere => .nowhere
    sinks rest (if n = 1 then (sink, two) else (one, sink))

def redirected (redirects : List (Nat × Sink)) (o : Output) : Output :=
  let (one, two) := sinks redirects (.stdout, .stderr)
  let into (sink : Sink) : Bytes :=
    (if one = sink then o.stdout else []) ++ (if two = sink then o.stderr else [])
  ⟨into .stdout, into .stderr, o.exitCode⟩

def programName (name : String) : String :=
  match (Path.mk name).components with
  | [.root, .normal "bin", .normal program] => program
  | [.root, .normal "usr", .normal "bin", .normal program] => program
  | _ => name

section Running

variable {m : Type → Type} [Monad m] (read : Path → m (Except FileError Bytes))

def program? (shell : List String → m Output) (name : String) (args : List String) :
    Option (m Output) :=
  match programName name with
  | "echo" => some (pure (echo args))
  | "printf" => some (pure (printf args))
  | "cat" => some (cat read args)
  | "true" => some (pure {})
  | "false" => some (pure { exitCode := 1 })
  | "sh" => some (shell args)
  | "bash" => some (shell args)
  | _ => none

def runLines (shell : List String → m Output) : List Line → Output → m Output
  | [], before => pure before
  | line :: rest, before =>
    if !line.condition.holds before then runLines shell rest before
    else
      match line.words with
      | [] => runLines shell rest before
      | "exit" :: code =>
        pure { before with exitCode := (code.head?.bind String.toNat?).getD before.exitCode % 256 }
      | "echo" :: args =>
        runLines shell rest (before.andThen (redirected line.redirects (echoEscaped args)))
      | name :: args =>
        match program? read shell name args with
        | some run => do
          runLines shell rest (before.andThen (redirected line.redirects (← run)))
        | none =>
          let failed := Output.complain ("sh: 1: " ++ name ++ ": not found\n") 127
          runLines shell rest (before.andThen (redirected line.redirects failed))

def shell : Nat → List String → m Output
  | 0, _ => pure (.complain "sh: too many shells\n" 2)
  | n + 1, args =>
    match args with
    | "-c" :: script :: _ =>
      match tokens .plain none script.toList with
      | some ts => runLines read (shell n) (lines ⟨.always, [], []⟩ ts) {}
      | none => pure (.complain "sh: 1: Syntax error: Unterminated quoted string\n" 2)
    | "-c" :: [] => pure (.complain "sh: 0: -c requires an argument\n" 2)
    | [] => pure {}
    | file :: _ => do
      match ← read ⟨file⟩ with
      | .error e => pure (.complain ("sh: 0: cannot open " ++ file ++ ": " ++ e.reason ++ "\n") 2)
      | .ok content =>
        match tokens .plain none (Text.Utf8.decodeLossy content).toList with
        | some ts => runLines read (shell n) (lines ⟨.always, [], []⟩ ts) {}
        | none => pure (.complain "sh: 1: Syntax error: Unterminated quoted string\n" 2)

def maxNesting : Nat := 64

def run (name : String) (args : List String) : m (Except FileError Output) :=
  if (name :: args).any (fun s => s.toList.contains '\x00') then
    pure (.error (.other "nul byte found in provided data"))
  else
    match program? read (shell read maxNesting) name args with
    | some run => .ok <$> run
    | none =>
      if !name.toList.contains '/' then pure (.error .notFound)
      else do
        match ← read ⟨name⟩ with
        | .ok _ => pure (.error .permissionDenied)
        | .error .isADirectory => pure (.error .permissionDenied)
        | .error e => pure (.error e)

end Running

end ClusterRegistration.Command
