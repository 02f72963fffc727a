namespace ClusterRegistration.Scenario

structure Call where
  store : String
  verb : String
  kind : String
  subject : String
deriving DecidableEq, Repr, Inhabited

def Call.text (c : Call) : String :=
  c.store ++ " " ++ c.verb ++ " " ++ c.kind ++ " " ++ c.subject

structure Pattern where
  store? : Option String
  verb? : Option String
  kind? : Option String
deriving DecidableEq, Repr, Inhabited

def Pattern.accepts (p : Pattern) (c : Call) : Bool :=
  p.store?.all (· == c.store) && p.verb?.all (· == c.verb) && p.kind?.all (· == c.kind)

structure Rule (α : Type) where
  pattern : Pattern
  skip : Nat
  times : Nat
  effect : α
deriving Repr

namespace Rule

variable {α : Type}

def count (r : Rule α) (c : Call) : Bool × Rule α :=
  if !r.pattern.accepts c then (false, r)
  else
    match r.skip, r.times with
    | skip + 1, _ => (false, { r with skip := skip })
    | 0, times + 1 => (true, { r with times := times })
    | 0, 0 => (false, r)

def first (c : Call) : List (Rule α) → Option α × List (Rule α)
  | [] => (none, [])
  | r :: rs =>
    match r.count c with
    | (true, r) => (some r.effect, r :: rs)
    | (false, r) =>
      let (effect, rs) := first c rs
      (effect, r :: rs)

def every (c : Call) (rs : List (Rule α)) : List α × List (Rule α) :=
  let counted := rs.map (·.count c)
  (counted.filterMap (fun (fires, r) => if fires then some r.effect else none), counted.map (·.2))

end Rule

end ClusterRegistration.Scenario
