import ClusterRegistration.CommandLine.Run

/-!
This module contains the program: it runs the command on the machine that it is started on. It has no
way to open secure connections of its own, so that servers can not be reached.
-/

namespace ClusterRegistration.Main

def fileError : IO.Error → FileError
  | .noFileOrDirectory _ _ _ => .notFound
  | .permissionDenied _ _ _ => .permissionDenied
  | .inappropriateType _ code _ => if code = 21 then .isADirectory else .notADirectory
  | e => .other (toString e)

def readFile (p : Path) : IO (Except FileError Bytes) := do
  try
    let content ← IO.FS.readBinFile p.text
    return .ok content.toList
  catch e =>
    return .error (fileError e)

def sleep (time : Nat) : IO Unit := do
  let step := Nat.pow 2 31
  for _ in [0:time / step] do
    IO.sleep step.toUInt32
  IO.sleep (time % step).toUInt32

def machine : Machine IO where
  clock := ⟨IO.monoMsNow, sleep⟩
  process := ⟨1, "", fun _ => ""⟩
  read := readFile
  send _ := pure (.error unreachable)

def names : List String :=
  ["SOURCE_CONTEXT", "DEST_CONTEXT", "KUBECONFIG", "HOME", "RUST_BACKTRACE"]

end ClusterRegistration.Main

open ClusterRegistration in
def main (arguments : List String) : IO UInt32 := do
  let environment ← Main.names.mapM fun v => return (v, ← IO.getEnv v)
  let lookup (name : String) : Option String := (environment.lookup name).join
  let outcome ← CommandLine.run Main.machine lookup arguments
  IO.print outcome.stdout
  IO.eprint outcome.stderr
  return outcome.exitCode.toUInt32
