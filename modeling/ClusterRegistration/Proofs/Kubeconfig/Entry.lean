import ClusterRegistration.Kubeconfig.Basic

namespace ClusterRegistration

namespace Named

variable {α : Type} {name : String}

def place (name : String) (entries : List (Named α)) : Nat :=
  entries.findIdx (·.name = name)

theorem find?_eq_none_iff {entries : List (Named α)} :
    find? name entries = none ↔ name ∉ entries.map Named.name := by
  unfold find?
  simp

theorem put_of_eq {entry first : Named α} (h : first.name = entry.name) (rest : List (Named α)) :
    put entry (first :: rest) = (some first, entry :: rest) := by
  rw [put, if_pos h]

theorem put_of_ne {entry first : Named α} (h : first.name ≠ entry.name) (rest : List (Named α)) :
    put entry (first :: rest) = ((put entry rest).1, first :: (put entry rest).2) := by
  rw [put, if_neg h]

theorem find?_of_eq {first : Named α} (h : first.name = name) (rest : List (Named α)) :
    find? name (first :: rest) = some first :=
  List.find?_cons_of_pos (decide_eq_true h)

theorem find?_of_ne {first : Named α} (h : first.name ≠ name) (rest : List (Named α)) :
    find? name (first :: rest) = find? name rest :=
  List.find?_cons_of_neg (by simpa using h)

variable (entry : Named α) (entries : List (Named α))

theorem put_fst : (put entry entries).1 = find? entry.name entries := by
  induction entries with
  | nil => rfl
  | cons first rest ih =>
    by_cases h : first.name = entry.name
    . rw [put_of_eq h, find?_of_eq h]
    . rw [put_of_ne h, find?_of_ne h, ih]

theorem find?_put_self : find? entry.name (put entry entries).2 = some entry := by
  induction entries with
  | nil => exact find?_of_eq rfl []
  | cons first rest ih =>
    by_cases h : first.name = entry.name
    . rw [put_of_eq h, find?_of_eq rfl]
    . rw [put_of_ne h, find?_of_ne h, ih]

variable {entry} in
theorem find?_put_of_ne (h : name ≠ entry.name) : find? name (put entry entries).2 = find? name entries := by
  induction entries with
  | nil => exact find?_of_ne h.symm []
  | cons first rest ih =>
    by_cases hfirst : first.name = entry.name
    . have hother : first.name ≠ name := by
        rw [hfirst]
        exact h.symm
      rw [put_of_eq hfirst, find?_of_ne h.symm, find?_of_ne hother]
    . rw [put_of_ne hfirst]
      by_cases hname : first.name = name
      . rw [find?_of_eq hname, find?_of_eq hname]
      . rw [find?_of_ne hname, find?_of_ne hname, ih]

theorem getElem?_put (i : Nat) :
    (put entry entries).2[i]? = if i = place entry.name entries then some entry else entries[i]? := by
  unfold place
  induction entries generalizing i with
  | nil =>
    cases i with
    | zero => rfl
    | succ i => rfl
  | cons first rest ih =>
    by_cases h : first.name = entry.name
    . rw [put_of_eq h, List.findIdx_cons, decide_eq_true h, cond_true]
      cases i with
      | zero => rfl
      | succ i => rfl
    . rw [put_of_ne h, List.findIdx_cons, decide_eq_false h, cond_false]
      cases i with
      | zero => rfl
      | succ i =>
        rw [List.getElem?_cons_succ, List.getElem?_cons_succ, ih]
        simp only [Nat.add_right_cancel_iff]

theorem names_put :
    (put entry entries).2.map Named.name =
      entries.map Named.name ++ if find? entry.name entries = none then [entry.name] else [] := by
  induction entries with
  | nil => rfl
  | cons first rest ih =>
    by_cases h : first.name = entry.name
    . rw [put_of_eq h, find?_of_eq h, if_neg nofun, List.append_nil, List.map_cons, List.map_cons, h]
    . rw [put_of_ne h, find?_of_ne h, List.map_cons, ih, List.map_cons, List.cons_append]

theorem length_put :
    (put entry entries).2.length = entries.length + if find? entry.name entries = none then 1 else 0 := by
  have hlength := congrArg List.length (names_put entry entries)
  rw [List.length_append, List.length_map, List.length_map] at hlength
  rw [hlength]
  split
  . rfl
  . rfl

variable {entries} in
theorem nodup_put (h : (entries.map Named.name).Nodup) : ((put entry entries).2.map Named.name).Nodup := by
  rw [names_put]
  split
  . next hnone =>
    rw [List.nodup_append]
    refine ⟨h, List.pairwise_singleton _ _, ?_⟩
    rintro name hname _ hentry rfl
    rw [List.mem_singleton] at hentry
    rw [hentry] at hname
    exact find?_eq_none_iff.mp hnone hname
  . rw [List.append_nil]
    exact h

end Named

namespace Kubeconfig

inductive Part where
  | clusters
  | contexts
  | users
deriving DecidableEq, Repr

abbrev Part.Detail : Part → Type
  | .clusters => ClusterDetail
  | .contexts => ContextDetail
  | .users => UserDetail

def entries (c : Kubeconfig) : (p : Part) → List (Named p.Detail)
  | .clusters => c.clusters
  | .contexts => c.contexts
  | .users => c.users

def lookup? (c : Kubeconfig) (name : String) : (p : Part) → Option (Named p.Detail)
  | .clusters => c.cluster? name
  | .contexts => c.context? name
  | .users => c.user? name

def putEntry (c : Kubeconfig) : (p : Part) → Named p.Detail → Option (Named p.Detail) × Kubeconfig
  | .clusters, cluster => c.putCluster cluster
  | .contexts, context => c.putContext context
  | .users, user => c.putUser user

variable (c : Kubeconfig) (p : Part) (entry : Named p.Detail)

theorem lookup?_eq (name : String) : c.lookup? name p = Named.find? name (c.entries p) := by
  cases p with
  | clusters => rfl
  | contexts => rfl
  | users => rfl

theorem putEntry_fst : (c.putEntry p entry).1 = (Named.put entry (c.entries p)).1 := by
  cases p with
  | clusters => rfl
  | contexts => rfl
  | users => rfl

theorem entries_putEntry : (c.putEntry p entry).2.entries p = (Named.put entry (c.entries p)).2 := by
  cases p with
  | clusters => rfl
  | contexts => rfl
  | users => rfl

variable {p} in
theorem entries_putEntry_of_ne {q : Part} (h : q ≠ p) : (c.putEntry p entry).2.entries q = c.entries q := by
  cases p with
  | clusters =>
    cases q with
    | clusters => exact absurd rfl h
    | contexts | users => rfl
  | contexts =>
    cases q with
    | contexts => exact absurd rfl h
    | clusters | users => rfl
  | users =>
    cases q with
    | users => exact absurd rfl h
    | clusters | contexts => rfl

structure SameHeader (c c' : Kubeconfig) : Prop where
  path : c'.path = c.path
  apiVersion : c'.apiVersion = c.apiVersion
  currentContext : c'.currentContext = c.currentContext
  kind : c'.kind = c.kind

theorem sameHeader_putEntry : c.SameHeader (c.putEntry p entry).2 := by
  cases p with
  | clusters => exact ⟨rfl, rfl, rfl, rfl⟩
  | contexts => exact ⟨rfl, rfl, rfl, rfl⟩
  | users => exact ⟨rfl, rfl, rfl, rfl⟩

structure IsPut (c : Kubeconfig) (p : Part) (entry : Named p.Detail) (previous : Option (Named p.Detail))
    (c' : Kubeconfig) : Prop where
  replaced : previous = c.lookup? entry.name p
  found : c'.lookup? entry.name p = some entry
  others : ∀ name, name ≠ entry.name → c'.lookup? name p = c.lookup? name p
  places : ∀ i, (c'.entries p)[i]? =
    if i = Named.place entry.name (c.entries p) then some entry else (c.entries p)[i]?
  grows : previous = none ∧ (c'.entries p).length = (c.entries p).length + 1 ∨
    previous ≠ none ∧ (c'.entries p).length = (c.entries p).length
  unique : ((c.entries p).map Named.name).Nodup → ((c'.entries p).map Named.name).Nodup
  lists : ∀ q, q ≠ p → c'.entries q = c.entries q
  header : c.SameHeader c'

theorem isPut_putEntry : c.IsPut p entry (c.putEntry p entry).1 (c.putEntry p entry).2 := by
  have hprevious : (c.putEntry p entry).1 = c.lookup? entry.name p := by
    rw [putEntry_fst, Named.put_fst, lookup?_eq]
  have hentries := entries_putEntry c p entry
  constructor
  case replaced => exact hprevious
  case found => rw [lookup?_eq, hentries, Named.find?_put_self]
  case others =>
    intro name hname
    rw [lookup?_eq, hentries, Named.find?_put_of_ne _ hname, lookup?_eq]
  case places =>
    intro i
    rw [hentries, Named.getElem?_put]
  case grows =>
    rw [hprevious, lookup?_eq, hentries, Named.length_put]
    split
    . next hnone => exact .inl ⟨hnone, rfl⟩
    . next hsome => exact .inr ⟨hsome, rfl⟩
  case unique =>
    rw [hentries]
    exact Named.nodup_put entry
  case lists => exact fun q hq => entries_putEntry_of_ne c entry hq
  case header => exact sameHeader_putEntry c p entry

end Kubeconfig

end ClusterRegistration
