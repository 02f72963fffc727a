import ClusterRegistration.Proofs.Registration.Hazard
import ClusterRegistration.Proofs.Store.Listing

/-!
This module contains what an attempt at a registration comes to: its result and the objects that it
creates, one after the other, depending on what the clusters hold when it begins. An attempt whose
calls get lost on the way creates the first few of these objects.
-/

namespace ClusterRegistration.Registration

structure Write where
  side : Side
  kind : Kind
  input : ObjectInput kind

namespace Clusters

def apply (w : Clusters) (x : Write) : Clusters :=
  match w.storeAt? x.side with
  | some name => w.put name ((w.store name).ensure x.input)
  | none => w

def applyAll (w : Clusters) (xs : List Write) : Clusters :=
  xs.foldl apply w

@[simp]
theorem applyAll_nil (w : Clusters) : w.applyAll [] = w :=
  rfl

@[simp]
theorem applyAll_cons (w : Clusters) (x : Write) (xs : List Write) :
    w.applyAll (x :: xs) = (w.apply x).applyAll xs :=
  rfl

theorem applyAll_append (w : Clusters) (xs ys : List Write) :
    w.applyAll (xs ++ ys) = (w.applyAll xs).applyAll ys := by
  apply List.foldl_append

theorem apply_of_storeAt? {w : Clusters} {x : Write} {name : String}
    (h : w.storeAt? x.side = some name) :
    w.apply x = w.put name ((w.store name).ensure x.input) := by
  rw [apply, h]

@[simp]
theorem storeAt?_apply (w : Clusters) (x : Write) (side : Side) :
    (w.apply x).storeAt? side = w.storeAt? side := by
  rw [apply]
  split <;> rfl

@[simp]
theorem storeOf?_apply (w : Clusters) (x : Write) : (w.apply x).storeOf? = w.storeOf? := by
  rw [apply]
  split <;> rfl

@[simp]
theorem storeOf?_applyAll (w : Clusters) (xs : List Write) :
    (w.applyAll xs).storeOf? = w.storeOf? := by
  induction xs generalizing w with
  | nil => rfl
  | cons x xs ih => rw [applyAll_cons, ih, storeOf?_apply]

@[simp]
theorem target_apply (w : Clusters) (x : Write) : (w.apply x).target = w.target := by
  rw [apply]
  split <;> rfl

@[simp]
theorem target_applyAll (w : Clusters) (xs : List Write) : (w.applyAll xs).target = w.target := by
  induction xs generalizing w with
  | nil => rfl
  | cons x xs ih => rw [applyAll_cons, ih, target_apply]

@[simp]
theorem storeAt?_applyAll (w : Clusters) (xs : List Write) (side : Side) :
    (w.applyAll xs).storeAt? side = w.storeAt? side := by
  unfold storeAt?
  rw [storeOf?_applyAll, target_applyAll]

theorem store_apply_of_ne {w : Clusters} {x : Write} {name other : String}
    (h : w.storeAt? x.side = some name) (hother : other ≠ name) :
    (w.apply x).store other = w.store other := by
  rw [apply_of_storeAt? h]
  apply store_put_of_ne _ hother

theorem store_apply_self {w : Clusters} {x : Write} {name : String}
    (h : w.storeAt? x.side = some name) :
    (w.apply x).store name = (w.store name).ensure x.input := by
  rw [apply_of_storeAt? h]
  apply store_put_self

theorem apply_of_contains {w : Clusters} {x : Write} {name : String}
    (h : w.storeAt? x.side = some name)
    (hkey : (w.store name).objects.contains (Store.inputKey x.input) = true) : w.apply x = w := by
  rw [apply_of_storeAt? h, Store.ensure_of_contains hkey, put_store]

theorem create_of_absent {w : Clusters} {x : Write} {name : String}
    (h : w.storeAt? x.side = some name)
    (hkey : (w.store name).objects.contains (Store.inputKey x.input) = false) :
    ∃ o, (w.store name).create x.input = .ok (o, (w.apply x).store name) := by
  rw [store_apply_self h, Store.ensure_of_absent hkey]
  exact ⟨_, Store.create_of_absent hkey⟩

theorem get?_apply_of_some {w : Clusters} (x : Write) {name : String} {key : Store.Key} {j : Json}
    (h : (w.store name).objects.get? key = some j) :
    ((w.apply x).store name).objects.get? key = some j := by
  unfold apply
  split
  . next other hother =>
    by_cases hname : name = other
    . subst hname
      rw [store_put_self]
      apply Store.get?_ensure_of_some _ h
    . rw [store_put_of_ne _ hname]
      exact h
  . exact h

theorem get?_applyAll_of_some {w : Clusters} (xs : List Write) {name : String} {key : Store.Key}
    {j : Json} (h : (w.store name).objects.get? key = some j) :
    ((w.applyAll xs).store name).objects.get? key = some j := by
  -- A write creates what is missing and leaves alone what is there.
  induction xs generalizing w with
  | nil => exact h
  | cons x xs ih =>
    rw [applyAll_cons]
    apply ih
    apply get?_apply_of_some x h

theorem of_contains_apply {w : Clusters} {x : Write} {name : String} {key : Store.Key}
    (h : ((w.apply x).store name).objects.contains key = true) :
    (w.store name).objects.contains key = true ∨
      w.storeAt? x.side = some name ∧ key = Store.inputKey x.input := by
  unfold apply at h
  split at h
  . next other hother =>
    by_cases hname : name = other
    . subst hname
      rw [store_put_self] at h
      by_cases hkey : key = Store.inputKey x.input
      . exact .inr ⟨hother, hkey⟩
      . rw [Store.contains_ensure_of_ne _ _ hkey] at h
        exact .inl h
    . rw [store_put_of_ne _ hname] at h
      exact .inl h
  . exact .inl h

theorem of_contains_applyAll {w : Clusters} {xs : List Write} {name : String} {key : Store.Key}
    (h : ((w.applyAll xs).store name).objects.contains key = true) :
    (w.store name).objects.contains key = true ∨
      ∃ x ∈ xs, w.storeAt? x.side = some name ∧ key = Store.inputKey x.input := by
  induction xs generalizing w with
  | nil => exact .inl h
  | cons x xs ih =>
    rw [applyAll_cons] at h
    rcases ih h with hold | ⟨y, hy, hname, hkey⟩
    . rcases of_contains_apply hold with hold | hnew
      . exact .inl hold
      . exact .inr ⟨x, List.mem_cons_self, hnew⟩
    . rw [storeAt?_apply] at hname
      exact .inr ⟨y, List.mem_cons_of_mem x hy, hname, hkey⟩

end Clusters

/--
What a script comes to if all calls get through.
-/
structure Prospect (α : Type) where
  result : Except Error α
  writes : List Write

namespace Prospect

variable {α β : Type}

def fail (e : Error) : Prospect α :=
  ⟨.error e, []⟩

def andThen (p : Prospect α) (q : α → Prospect β) : Prospect β :=
  match p.result with
  | .ok a => ⟨(q a).result, p.writes ++ (q a).writes⟩
  | .error e => ⟨.error e, p.writes⟩

theorem andThen_of_ok {p : Prospect α} {a : α} (h : p.result = .ok a) (q : α → Prospect β) :
    p.andThen q = ⟨(q a).result, p.writes ++ (q a).writes⟩ := by
  rw [andThen, h]

theorem andThen_of_error {p : Prospect α} {e : Error} (h : p.result = .error e)
    (q : α → Prospect β) : p.andThen q = ⟨.error e, p.writes⟩ := by
  rw [andThen, h]

end Prospect

def Hazard.Failure (hz : Hazard) (e : Error) : Prop :=
  (∃ operation source, e = .api operation source ∧ hz.error source) ∨
    (∃ operation, e = .deadlineExceeded operation ∧ hz.cut)

def Hazard.Harmless (hz : Hazard) : Prop :=
  ∀ e, hz.error e → e.isNotFound = false ∧ e.isAlreadyExists = false

def Prospect.Reaches {α : Type} (hz : Hazard) (p : Prospect α) (w : Clusters) (r : Except Error α)
    (w' : Clusters) : Prop :=
  (r = p.result ∧ w' = w.applyAll p.writes) ∨
    ∃ e xs, r = .error e ∧ hz.Failure e ∧ xs <+: p.writes ∧ w' = w.applyAll xs ∧
      (hz.late ∨ xs ≠ p.writes ∨ p.writes = [])

theorem Prospect.reaches_of_failure {α : Type} {hz : Hazard} (p : Prospect α) (w : Clusters) {e : Error}
    (h : hz.Failure e) : p.Reaches hz w (.error e) w := by
  refine .inr ⟨e, [], rfl, h, List.nil_prefix, rfl, .inr ?_⟩
  by_cases hp : p.writes = []
  . exact .inr hp
  . exact .inl (fun h => hp h.symm)

namespace Script

variable {α β : Type} {hz : Hazard} {w : Clusters}

theorem done_reaches (result : Except Error α) (w : Clusters) :
    (Script.done result).Always hz (Prospect.Reaches hz ⟨result, []⟩ w) w :=
  .inl ⟨rfl, rfl⟩

theorem bind_reaches {s : Script α} {f : α → Script β} {p : Prospect α} {q : α → Prospect β}
    (hs : s.Always hz (p.Reaches hz w) w)
    (hf : ∀ a, p.result = .ok a →
      (f a).Always hz ((q a).Reaches hz (w.applyAll p.writes)) (w.applyAll p.writes))
    (hwrites : ∀ a, p.result = .ok a → p.writes = [] ∨ (q a).writes ≠ []) :
    (s.bind f).Always hz ((p.andThen q).Reaches hz w) w := by
  rw [always_bind]
  apply always_mono hs
  rintro r w' (⟨rfl, rfl⟩ | ⟨e, xs, rfl, he, hxs, rfl, hpart⟩)
  -- The first script was carried out, and the second one goes on from there.
  . cases hr : p.result with
    | error e =>
      rw [Prospect.andThen_of_error hr]
      exact .inl ⟨rfl, rfl⟩
    | ok a =>
      rw [Prospect.andThen_of_ok hr]
      apply always_mono (hf a hr)
      rintro r w' (⟨rfl, rfl⟩ | ⟨e, xs, rfl, he, hxs, rfl, hpart⟩)
      . refine .inl ⟨rfl, ?_⟩
        rw [Clusters.applyAll_append]
      . refine .inr ⟨e, p.writes ++ xs, rfl, he, ?_, ?_, ?_⟩
        . exact (List.prefix_append_right_inj p.writes).mpr hxs
        . rw [Clusters.applyAll_append]
        . simp only [ne_eq, List.append_cancel_left_eq, List.append_eq_nil_iff]
          rcases hpart with h | h | h
          . exact .inl h
          . exact .inr (.inl h)
          . have hp : p.writes = [] := (hwrites a hr).resolve_right (fun hq => hq h)
            exact .inr (.inr ⟨hp, h⟩)
  -- The first script failed, so its writes are a part of those of both.
  . show (p.andThen q).Reaches hz w (.error e) _
    cases hr : p.result with
    | error e =>
      rw [Prospect.andThen_of_error hr]
      exact .inr ⟨_, xs, rfl, he, hxs, rfl, hpart⟩
    | ok a =>
      rw [Prospect.andThen_of_ok hr]
      refine .inr ⟨e, xs, rfl, he, hxs.trans (List.prefix_append _ _), rfl, ?_⟩
      by_cases hq : (q a).writes = []
      . have hp : p.writes = [] := (hwrites a hr).resolve_right (fun h => h hq)
        refine .inr (.inr ?_)
        simp [hp, hq]
      . refine .inr (.inl ?_)
        rintro rfl
        have hlength := hxs.length_le
        rw [List.length_append] at hlength
        have hpos := List.length_pos_iff.mpr hq
        omega

section Calls

variable {post : Except Error α → Clusters → Prop} {side : Side} {operation : String} {name : String}

theorem always_ask_of_read {r : Request} {f : Except ClusterError r.Answer → Script α}
    (hname : w.storeAt? side = some name)
    (hread : ((w.store name).answer r).2 = w.store name)
    (hanswer : (f (((w.store name).answer r).1.mapError ClusterError.store)).Always hz post w)
    (hcut : hz.cut → post (.error (.deadlineExceeded operation)) w)
    (herror : ∀ e, hz.error e → (f (.error e)).Always hz post w) :
    ((Script.ask side operation r).bind f).Always hz post w := by
  have hstate : (w.answer (.ask side operation r)).2 = w := by
    rw [Clusters.answer_ask hname, hread, Clusters.put_store]
  refine ⟨?_, ?_⟩
  . rw [hstate, Clusters.answer_ask hname]
    exact hanswer
  . intro w' hw'
    have : w' = w := by
      rcases hw' with rfl | ⟨-, rfl⟩
      . rfl
      . exact hstate
    subst this
    exact ⟨hcut, herror⟩

theorem always_connect {t : Target} {f : Unit → Script α}
    (hknown : ∀ name, w.storeOf? t = some name → (f ()).Always hz post w)
    (hunknown : w.storeOf? t = none → post (.error (.connect t.text (.store (.io "unknown cluster")))) w)
    (hcut : hz.cut → post (.error (.deadlineExceeded (Action.connect side t).operation)) w)
    (herror : ∀ e, hz.error e → post (.error (.connect t.text e)) w) :
    ((Script.connect side t).bind f).Always hz post w := by
  have hstate : (w.answer (.connect side t)).2 = w := w.answer_connect side t
  refine ⟨?_, ?_⟩
  . rw [hstate]
    simp only [Clusters.answer]
    cases hname : w.storeOf? t with
    | some name => exact hknown name hname
    | none => exact hunknown hname
  . intro w' hw'
    have : w' = w := by
      rcases hw' with rfl | ⟨-, rfl⟩
      . rfl
      . exact hstate
    subst this
    exact ⟨hcut, herror⟩

def acknowledge {γ : Type} (operation : String) (answer : Except ClusterError γ) : Script Unit :=
  (Script.require operation (ClusterError.unlessExists answer)).bind (fun _ => pure ())

theorem createIfAbsent_eq (side : Side) (operation : String) {k : Kind} (input : ObjectInput k) :
    Script.createIfAbsent side operation input =
      (Script.ask side operation (.create k input)).bind (acknowledge operation) :=
  rfl

theorem acknowledge_of_isAlreadyExists {γ : Type} {e : ClusterError} (h : e.isAlreadyExists = true) :
    acknowledge operation (.error e : Except ClusterError γ) = .done (.ok ()) := by
  rw [acknowledge, ClusterError.unlessExists, if_pos h]
  rfl

theorem acknowledge_of_error {γ : Type} {e : ClusterError} (h : e.isAlreadyExists = false) :
    acknowledge operation (.error e : Except ClusterError γ) = .fail (.api operation e) := by
  rw [acknowledge, ClusterError.unlessExists, h]
  rfl

theorem createIfAbsent_reaches (hz' : hz.Harmless) (x : Write) (hname : w.storeAt? x.side = some name)
    (operation : String) :
    (Script.createIfAbsent x.side operation x.input).Always hz
      (Prospect.Reaches hz ⟨.ok (), [x]⟩ w) w := by
  rw [createIfAbsent_eq]
  have hstate : (w.answer (.ask x.side operation (.create x.kind x.input))).2 = w.apply x := by
    rw [Clusters.answer_ask hname, Clusters.apply_of_storeAt? hname, Store.answer, Store.ensure]
    cases (w.store name).create x.input <;> rfl
  refine ⟨?_, ?_⟩
  . rw [hstate, Clusters.answer_ask hname]
    cases hc : (w.store name).objects.contains (Store.inputKey x.input) with
    | true =>
      simp only [Store.answer, Store.create_of_contains hc]
      show (acknowledge operation (.error _)).Always hz _ _
      rw [acknowledge_of_isAlreadyExists rfl]
      exact .inl ⟨rfl, rfl⟩
    | false =>
      simp only [Store.answer, Store.create_of_absent hc]
      exact .inl ⟨rfl, rfl⟩
  . intro w' hw'
    -- A creation that is not answered may still have happened.
    have hpart : ∃ xs, xs <+: [x] ∧ w' = w.applyAll xs ∧ (hz.late ∨ xs ≠ [x] ∨ [x] = []) := by
      rcases hw' with rfl | ⟨hlate, rfl⟩
      . exact ⟨[], List.nil_prefix, rfl, .inr (.inl (by simp))⟩
      . exact ⟨[x], List.prefix_rfl, hstate, .inl hlate⟩
    obtain ⟨xs, hxs, hw', hpart⟩ := hpart
    refine ⟨?_, ?_⟩
    . intro hcut
      exact .inr ⟨_, xs, rfl, .inr ⟨_, rfl, hcut⟩, hxs, hw', hpart⟩
    . intro e he
      show (acknowledge operation (.error e)).Always hz _ w'
      rw [acknowledge_of_error (hz' e he).2]
      exact .inr ⟨_, xs, rfl, .inl ⟨_, _, rfl, he⟩, hxs, hw', hpart⟩

theorem createIfAbsent_fail_reaches (hz' : hz.Harmless) (x : Write)
    (hname : w.storeAt? x.side = some name) (operation : String) (e : Error) :
    ((Script.createIfAbsent x.side operation x.input).bind (fun _ => (Script.fail e : Script α))).Always hz
      (Prospect.Reaches hz ⟨.error e, [x]⟩ w) w := by
  rw [always_bind]
  apply always_mono (createIfAbsent_reaches hz' x hname operation)
  rintro r w' (⟨rfl, rfl⟩ | ⟨e', xs, rfl, he', hxs, rfl, hpart⟩)
  . exact .inl ⟨rfl, rfl⟩
  . exact .inr ⟨e', xs, rfl, he', hxs, rfl, hpart⟩

end Calls

end Script

end ClusterRegistration.Registration
