import ClusterRegistration.FileTree
import ClusterRegistration.Text.Utf8

namespace ClusterRegistration.Command

structure Output where
  stdout : Bytes := []
  stderr : Bytes := []
  exitCode : Nat := 0
deriving DecidableEq, Repr, Inhabited

namespace Output

def success (o : Output) : Bool :=
  o.exitCode = 0

def print (text : Bytes) : Output :=
  { stdout := text }

def complain (message : String) (exitCode : Nat) : Output :=
  { stderr := Text.Utf8.encode message, exitCode := exitCode }

def andThen (o p : Output) : Output :=
  ⟨o.stdout ++ p.stdout, o.stderr ++ p.stderr, p.exitCode⟩

end Output

def octalDigit? (c : Char) : Option Nat :=
  if '0' ≤ c && c ≤ '7' then some (c.toNat - '0'.toNat) else none

def takeOctal : Nat → Nat → List Char → Nat × List Char
  | 0, value, cs => (value, cs)
  | _ + 1, value, [] => (value, [])
  | n + 1, value, c :: cs =>
    match octalDigit? c with
    | some d => takeOctal n (value * 8 + d) cs
    | none => (value, c :: cs)

theorem length_takeOctal (n value : Nat) (cs : List Char) :
    (takeOctal n value cs).2.length ≤ cs.length := by
  induction n generalizing value cs with
  | zero => simp [takeOctal]
  | succ n ih =>
    cases cs with
    | nil => simp [takeOctal]
    | cons c cs =>
      simp only [takeOctal]
      split
      · exact Nat.le_succ_of_le (ih _ _)
      · simp

def escapeByte? (c : Char) : Option UInt8 :=
  match c with
  | '\\' => some 92
  | 'a' => some 7
  | 'b' => some 8
  | 'f' => some 12
  | 'n' => some 10
  | 'r' => some 13
  | 't' => some 9
  | 'v' => some 11
  | _ => none

inductive Escapes where
  | format
  | argument
deriving DecidableEq, Repr

def Escapes.octal? (e : Escapes) (c : Char) : Option (Nat × Nat) :=
  match e with
  | .format => (octalDigit? c).map (fun d => (2, d))
  | .argument => if c = '0' then some (3, 0) else none

def charBytes (c : Char) : Bytes :=
  Text.Utf8.encodeChar c

def escaped (e : Escapes) (c : Char) (cs : List Char) : Bytes × List Char :=
  match e.octal? c with
  | some (n, d) =>
    let (value, rest) := takeOctal n d cs
    ([value.toUInt8], rest)
  | none =>
    match escapeByte? c with
    | some b => ([b], cs)
    | none => (charBytes '\\' ++ charBytes c, cs)

theorem length_escaped (e : Escapes) (c : Char) (cs : List Char) :
    (escaped e c cs).2.length ≤ cs.length := by
  unfold escaped
  split
  · exact length_takeOctal _ _ cs
  · split <;> exact Nat.le_refl _

def unescape (e : Escapes) : List Char → Bytes × Bool
  | [] => ([], false)
  | '\\' :: c :: cs =>
    if c = 'c' then ([], true)
    else
      let (rest, stop) := unescape e (escaped e c cs).2
      ((escaped e c cs).1 ++ rest, stop)
  | c :: cs =>
    let (rest, stop) := unescape e cs
    (charBytes c ++ rest, stop)
termination_by cs => cs.length
decreasing_by
  · have := length_escaped e c cs
    simp only [List.length_cons]
    omega
  · simp

def echo (args : List String) : Output :=
  match args with
  | "-n" :: args => .print (Text.Utf8.encode (String.intercalate " " args))
  | args => .print (Text.Utf8.encode (String.intercalate " " args ++ "\n"))

def echoEscaped (args : List String) : Output :=
  let (endsLine, args) :=
    match args with
    | "-n" :: args => (false, args)
    | args => (true, args)
  let (text, stop) := unescape .argument (String.intercalate " " args).toList
  .print (if endsLine && !stop then text ++ [10] else text)

def directive? (c : Char) : Option (Option String → Bytes) :=
  match c with
  | 's' => some (fun a => Text.Utf8.encode (a.getD ""))
  | 'b' => some (fun a => (unescape .argument (a.getD "").toList).1)
  | 'd' => some (fun a => Text.Utf8.encode (a.getD "0"))
  | _ => none

def fill : List Char → List String → Bytes × List String
  | [], args => ([], args)
  | '%' :: '%' :: cs, args =>
    let (rest, left) := fill cs args
    (charBytes '%' ++ rest, left)
  | '\\' :: c :: cs, args =>
    let (rest, left) := fill (escaped .format c cs).2 args
    ((escaped .format c cs).1 ++ rest, left)
  | '%' :: c :: cs, args =>
    match directive? c with
    | some write =>
      let (rest, left) := fill cs args.tail
      (write args.head? ++ rest, left)
    | none =>
      let (rest, left) := fill cs args
      (charBytes '%' ++ charBytes c ++ rest, left)
  | c :: cs, args =>
    let (rest, left) := fill cs args
    (charBytes c ++ rest, left)
termination_by cs _ => cs.length
decreasing_by
  all_goals simp only [List.length_cons]
  · omega
  · have := length_escaped .format c cs
    omega
  all_goals omega

def printfBytes (format : List Char) : Nat → List String → Bytes
  | 0, _ => []
  | n + 1, args =>
    let (text, left) := fill format args
    if left.isEmpty || left.length = args.length then text
    else text ++ printfBytes format n left

def printf : List String → Output
  | [] => .complain "printf: usage: printf format [arg ...]\n" 2
  | format :: args => .print (printfBytes format.toList (args.length + 1) args)

section Files

variable {m : Type → Type} [Monad m]

def cat (read : Path → m (Except FileError Bytes)) : List String → m Output
  | [] => pure {}
  | file :: files => do
    let first ← read ⟨file⟩
    let rest ← cat read files
    match first with
    | .ok content => pure { rest with stdout := content ++ rest.stdout }
    | .error e =>
      let failed := Output.complain ("cat: " ++ file ++ ": " ++ e.reason ++ "\n") 1
      pure ⟨rest.stdout, failed.stderr ++ rest.stderr, 1⟩

end Files

end ClusterRegistration.Command
