import Mathlib.Data.List.Forall2
import ClusterRegistration.Object.Basic
import ClusterRegistration.Object.Status
import ClusterRegistration.Proofs.Json.Order
import ClusterRegistration.Proofs.Record.Alike

/-!
This module contains what it takes to compare two ways of reading: a relation of readers that is kept
by everything readers are made of. Whatever the relation, the readers of all objects are related.
-/

namespace ClusterRegistration

open Record Json

def Record.Field.Commutes {ρ : Type} (f g : Field Item Item.Reader ρ) : Prop :=
  ∀ i j set set', f.read i = .ok set → g.read j = .ok set' → ∀ r, set (set' r) = set' (set r)

instance {ρ : Type} : Std.Symm (Record.Field.Commutes (ρ := ρ)) where
  symm _ _ h i j set set' hset hset' r := (h j i set' set hset' hset r).symm

structure Record.Field.Related {ν : Type} {m : Type → Type} {ρ : Type}
    (R : (ν → m (ρ → ρ)) → (Item → Item.Reader (ρ → ρ)) → Prop) (f : Field ν m ρ)
    (g : Field Item Item.Reader ρ) : Prop where
  key : f.key = g.key
  presence : f.presence = g.presence
  read : R f.read g.read

/--
A relation of readers of some document and readers of JSON values.
-/
structure Agreement (ν : Type) (m : Type → Type) [Monad m] [ValueSource ν m] where
  Agree {α : Type} : (ν → m α) → (Item → Item.Reader α) → Prop
  map {α β : Type} {read : ν → m α} {read' : Item → Item.Reader α} (f : α → β) :
    Agree read read' → Agree (fun node => f <$> read node) (fun item => f <$> read' item)
  text : Agree Source.text Source.text
  flag : Agree Source.flag Source.flag
  integer (low high : Int) (type : String) :
    Agree (ValueSource.integer low high type) (ValueSource.integer low high type)
  choice (name : String) (names : List String) :
    Agree (ValueSource.choice name names) (ValueSource.choice name names)
  dictionary : Agree Dictionary.read Dictionary.read
  optional {α : Type} {read : ν → m α} {read' : Item → Item.Reader α} :
    Agree read read' → Agree (Source.optional read) (Source.optional read')
  list {α : Type} {read : ν → m α} {read' : Item → Item.Reader α} :
    Agree read read' → Agree (Source.list read) (Source.list read')
  record {ρ : Type} (name : String) {fields : List (Field ν m ρ)}
    {fields' : List (Field Item Item.Reader ρ)} (start : ρ) :
    List.Forall₂ (Field.Related Agree) fields fields' → fields'.Pairwise Field.Commutes →
    Agree (Source.record name fields start) (Source.record name fields' start)
  /-- A record whose other members make up a header, in whatever order they come. -/
  withHeader {ρ η α : Type} (name : String) {fields : List (Field ν m ρ)}
    {fields' : List (Field Item Item.Reader ρ)} (start : ρ)
    (header : List (String × Json) → Except Mismatch η) (finish : ρ → η → α) :
    List.Forall₂ (Field.Related Agree) fields fields' → fields'.Pairwise Field.Commutes →
    (∀ ms ms', Permuted Same ms ms' → Alike Eq (header ms) (header ms')) →
    Agree
      (fun node => do
        let r ← WithOthers.read name fields start node
        let h ← Refusal.ofExcept (header r.others)
        pure (finish r.value h))
      (fun item => do
        let r ← WithOthers.read name fields' start item
        let h ← Refusal.ofExcept (header r.others)
        pure (finish r.value h))

namespace Record.Field

variable {ρ α β : Type} {key key' : String} {presence presence' : Presence}
  {read : Item → Item.Reader α} {read' : Item → Item.Reader β} {set : α → ρ → ρ} {set' : β → ρ → ρ}

theorem commutes_of_set (h : ∀ a b r, set a (set' b r) = set' b (set a r)) :
    Commutes ⟨key, presence, fun item => set <$> read item⟩
      ⟨key', presence', fun item => set' <$> read' item⟩ := by
  intro i j f g hf hg r
  cases hread : read i with
  | error e =>
    simp only [hread] at hf
    cases hf
  | ok a =>
    cases hread' : read' j with
    | error e =>
      simp only [hread'] at hg
      cases hg
    | ok b =>
      simp only [hread] at hf
      simp only [hread'] at hg
      cases hf
      cases hg
      exact h a b r

end Record.Field

variable {ν : Type} {m : Type → Type} [Monad m] [ValueSource ν m]

namespace Agreement

variable (A : Agreement ν m) {ρ α : Type} {read : ν → m α} {read' : Item → Item.Reader α}

theorem required (key : String) (set : α → ρ → ρ) (h : A.Agree read read') :
    Field.Related A.Agree (.required key read set) (.required key read' set) :=
  ⟨rfl, rfl, A.map set h⟩

theorem defaulted (key : String) (set : α → ρ → ρ) (h : A.Agree read read') :
    Field.Related A.Agree (.defaulted key read set) (.defaulted key read' set) :=
  ⟨rfl, rfl, A.map set h⟩

theorem optionally (key : String) (set : Option α → ρ → ρ) (h : A.Agree read read') :
    Field.Related A.Agree (.optional key read set) (.optional key read' set) :=
  ⟨rfl, rfl, A.map set (A.optional h)⟩

end Agreement

end ClusterRegistration
