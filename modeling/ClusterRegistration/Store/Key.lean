import ClusterRegistration.Object.Kind

/-!
This module contains the keys under which a store keeps objects, and their order: by definition, then
by namespace, then by name.
-/

namespace ClusterRegistration.Store

structure Key where
  definition : Definition
  ns : String
  name : String
deriving DecidableEq, Repr, Inhabited

namespace Key

def texts (key : Key) : List String :=
  [key.definition.group, key.definition.version, key.definition.kind, key.definition.plural,
    key.definition.singular, key.ns, key.name]

theorem eq_of_texts_eq {a b : Key} (h : a.texts = b.texts) : a = b := by
  obtain ⟨⟨_, _, _, _, _⟩, _, _⟩ := a
  obtain ⟨⟨_, _, _, _, _⟩, _, _⟩ := b
  simp_all [texts]

instance : Ord Key where
  compare a b := compare a.texts b.texts

theorem compare_def (a b : Key) : compare a b = compare a.texts b.texts :=
  rfl

instance : Std.TransOrd Key where
  eq_swap {a b} := @Std.OrientedCmp.eq_swap (List String) compare _ a.texts b.texts
  isLE_trans {a b c} := @Std.TransCmp.isLE_trans (List String) compare _ a.texts b.texts c.texts

instance : Std.LawfulEqOrd Key where
  compare_self {a} := @Std.ReflCmp.compare_self (List String) compare _ a.texts
  eq_of_compare {a b} h :=
    eq_of_texts_eq (@Std.LawfulEqOrd.eq_of_compare (List String) _ _ a.texts b.texts h)

def of (k : Kind) (item : ItemName) : Key :=
  ⟨k.definition, if k.isNamespaced then item.ns else "", item.name⟩

def label (k : Kind) (key : Key) : String :=
  k.label ++ " " ++ key.ns ++ "/" ++ key.name

end Key

end ClusterRegistration.Store
