import ClusterRegistration.Registration.Error
import ClusterRegistration.Registration.Target

/-!
This module contains scripts: procedures that act on clusters one action at a time, whatever answers
them.
-/

namespace ClusterRegistration.Registration

inductive Side where
  | source
  | destination
deriving DecidableEq, Repr, Inhabited

/--
What a script does to the outside. The operation of a request is its name in errors.
-/
inductive Action where
  | connect (side : Side) (target : Target)
  | ask (side : Side) (operation : String) (r : Request)

namespace Action

def Outcome : Action → Type
  | .connect _ _ => Except ClusterError Unit
  | .ask _ _ r => Except ClusterError r.Answer

def operation : Action → String
  | .connect .source _ => "connect to source"
  | .connect .destination _ => "connect to destination"
  | .ask _ operation _ => operation

end Action

/--
A procedure that is over, or acts and goes on with what the action gives back.
-/
inductive Script (α : Type) where
  | done (result : Except Error α)
  | act (a : Action) (next : a.Outcome → Script α)

namespace Script

variable {α β : Type}

def fail (e : Error) : Script α :=
  .done (.error e)

def bind : Script α → (α → Script β) → Script β
  | .done (.ok a), f => f a
  | .done (.error e), _ => .done (.error e)
  | .act a next, f => .act a (fun o => (next o).bind f)

instance : Monad Script where
  pure a := .done (.ok a)
  bind := bind

@[simp]
theorem pure_eq (a : α) : (pure a : Script α) = .done (.ok a) :=
  rfl

@[simp]
theorem bind_eq (s : Script α) (f : α → Script β) : s >>= f = s.bind f :=
  rfl

@[simp]
theorem done_ok_bind (a : α) (f : α → Script β) : (Script.done (.ok a)).bind f = f a :=
  rfl

@[simp]
theorem done_error_bind (e : Error) (f : α → Script β) :
    (Script.done (.error e)).bind f = .done (.error e) :=
  rfl

@[simp]
theorem fail_bind (e : Error) (f : α → Script β) : (Script.fail e).bind f = .fail e :=
  rfl

@[simp]
theorem act_bind (a : Action) (next : a.Outcome → Script α) (f : α → Script β) :
    (Script.act a next).bind f = .act a (fun o => (next o).bind f) :=
  rfl

theorem bind_assoc {γ : Type} (s : Script α) (f : α → Script β) (g : β → Script γ) :
    (s.bind f).bind g = s.bind (fun a => (f a).bind g) := by
  induction s with
  | done result => cases result <;> rfl
  | act a next ih => simp [ih]

def ofExcept (result : Except Error α) : Script α :=
  .done result

def connect (side : Side) (target : Target) : Script Unit :=
  .act (.connect side target) fun
    | .ok () => pure ()
    | .error e => fail (.connect target.text e)

def ask (side : Side) (operation : String) (r : Request) :
    Script (Except ClusterError r.Answer) :=
  .act (.ask side operation r) (fun o => pure o)

def require (operation : String) : Except ClusterError α → Script α
  | .ok a => pure a
  | .error e => fail (.api operation e)

def createIfAbsent (side : Side) (operation : String) {k : Kind} (input : ObjectInput k) :
    Script Unit := do
  let answer ← ask side operation (.create k input)
  let _ ← require operation (ClusterError.unlessExists answer)
  pure ()

end Script

end ClusterRegistration.Registration
