/-!
This module contains the similarity of texts after Jaro: how many characters two texts share at nearly
the same place, and how many of these stand in another order.
-/

namespace ClusterRegistration.Text

def strike? (c : Char) : List (Option Char) → Option (List (Option Char))
  | [] => none
  | d :: ds => if d = some c then some (none :: ds) else (strike? c ds).map (d :: ·)

def pairUp (reach : Nat) : Nat → List Char → List (Option Char) → List Char × List (Option Char)
  | _, [], other => ([], other)
  | i, c :: cs, other =>
    let low := i - reach
    let window := (other.drop low).take (i + reach + 1 - low)
    match strike? c window with
    | some window =>
      let rest := other.drop (i + reach + 1)
      let (found, left) := pairUp reach (i + 1) cs (other.take low ++ window ++ rest)
      (c :: found, left)
    | none => pairUp reach (i + 1) cs other

def similarity (s t : String) : Nat × Nat :=
  let a := s.toList
  let b := t.toList
  if a.isEmpty && b.isEmpty then (1, 1)
  else if a.isEmpty || b.isEmpty then (0, 1)
  else
    let reach := max a.length b.length / 2 - 1
    let (found, left) := pairUp reach 0 a (b.map some)
    let partners := (b.zip left).filterMap (fun (c, l) => if l.isNone then some c else none)
    let m := found.length
    if m = 0 then (0, 1)
    else
      let moved := ((found.zip partners).filter (fun (c, d) => c != d)).length / 2
      (m * m * b.length + m * m * a.length + (m - moved) * a.length * b.length,
        3 * m * a.length * b.length)

end ClusterRegistration.Text
