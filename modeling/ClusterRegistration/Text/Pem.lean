import ClusterRegistration.Text.Base64
import ClusterRegistration.Text.Utf8

namespace ClusterRegistration.Text.Pem

def lines (bytes : List UInt8) : List (List UInt8) :=
  bytes.splitOn 10

def isBlank (b : UInt8) : Bool :=
  b == 13 || b == 32

def trimmed (line : List UInt8) : List UInt8 :=
  (line.reverse.dropWhile isBlank).reverse

def marker (word : String) : List UInt8 :=
  Utf8.encode ("-----" ++ word ++ " ")

def label? (word : String) (line : List UInt8) : Option (List UInt8) :=
  let rest := (trimmed line).drop (marker word).length
  let dashes := rest.reverse.takeWhile (· == 45)
  if dashes.length = 5 then some (rest.take (rest.length - 5)) else none

structure Block where
  label : List UInt8
  content : List UInt8
deriving DecidableEq, Repr

def blocksFrom : Option (List UInt8 × List UInt8) → List (List UInt8) → Option (List Block)
  | none, [] => some []
  | some _, [] => none
  | none, line :: rest =>
    if (marker "BEGIN").isPrefixOf line then
      match label? "BEGIN" line with
      | some label => blocksFrom (some (label, [])) rest
      | none => none
    else blocksFrom none rest
  | some (label, content), line :: rest =>
    if (marker "END" ++ label ++ [45, 45, 45, 45, 45]).isPrefixOf line then
      match Base64.decode content with
      | .ok bytes => (blocksFrom none rest).map (⟨label, bytes⟩ :: ·)
      | .error _ => none
    else blocksFrom (some (label, content ++ trimmed line)) rest

def blocks (bytes : List UInt8) : Option (List Block) :=
  blocksFrom none (lines bytes)

def labelled (label : String) (bs : List Block) : List Block :=
  bs.filter (·.label = Utf8.encode label)

end ClusterRegistration.Text.Pem
