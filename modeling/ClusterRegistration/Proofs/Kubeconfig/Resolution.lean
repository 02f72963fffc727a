import ClusterRegistration.Proofs.Kubeconfig.Entry

namespace ClusterRegistration.Kubeconfig

structure Put where
  part : Part
  entry : Named part.Detail

def putAll (c : Kubeconfig) (puts : List Put) : Kubeconfig :=
  puts.foldl (fun c x => (c.putEntry x.part x.entry).2) c

def Spared (puts : List Put) (p : Part) (name : String) : Prop :=
  ∀ x ∈ puts, x.part = p → x.entry.name ≠ name

instance (puts : List Put) (p : Part) (name : String) : Decidable (Spared puts p name) :=
  inferInstanceAs (Decidable (∀ x ∈ puts, x.part = p → x.entry.name ≠ name))

structure IsLast (puts : List Put) (p : Part) (name : String) (entry : Named p.Detail) : Prop where
  named : entry.name = name
  last : ∃ before after, puts = before ++ ⟨p, entry⟩ :: after ∧ Spared after p name

variable {c : Kubeconfig} {p : Part} {name : String} {puts : List Put}

theorem putAll_cons (c : Kubeconfig) (x : Put) (puts : List Put) :
    c.putAll (x :: puts) = (c.putEntry x.part x.entry).2.putAll puts :=
  rfl

theorem putAll_append (c : Kubeconfig) (puts puts' : List Put) :
    c.putAll (puts ++ puts') = (c.putAll puts).putAll puts' :=
  List.foldl_append

theorem spared_cons {x : Put} :
    Spared (x :: puts) p name ↔ (x.part = p → x.entry.name ≠ name) ∧ Spared puts p name :=
  List.forall_mem_cons

theorem spared_or_isLast (puts : List Put) (p : Part) (name : String) :
    Spared puts p name ∨ ∃ entry, IsLast puts p name entry := by
  induction puts with
  | nil => exact .inl fun _ hmem => absurd hmem List.not_mem_nil
  | cons x puts ih =>
    rcases ih with hspared | ⟨entry, hname, before, after, rfl, hafter⟩
    . by_cases hx : x.part = p → x.entry.name ≠ name
      . exact .inl (spared_cons.mpr ⟨hx, hspared⟩)
      . obtain ⟨part, entry⟩ := x
        simp only [Classical.not_imp, Classical.not_not] at hx
        obtain ⟨rfl, hname⟩ := hx
        exact .inr ⟨entry, hname, [], puts, rfl, hspared⟩
    . exact .inr ⟨entry, hname, x :: before, after, rfl, hafter⟩

section Lookup

theorem lookup?_putEntry_of_spared {x : Put} (h : x.part = p → x.entry.name ≠ name) :
    (c.putEntry x.part x.entry).2.lookup? name p = c.lookup? name p := by
  by_cases hpart : x.part = p
  . subst hpart
    exact (isPut_putEntry c x.part x.entry).others name (h rfl).symm
  . rw [lookup?_eq, lookup?_eq, (isPut_putEntry c x.part x.entry).lists p (Ne.symm hpart)]

theorem lookup?_putAll_of_spared (h : Spared puts p name) : (c.putAll puts).lookup? name p = c.lookup? name p := by
  induction puts generalizing c with
  | nil => rfl
  | cons x puts ih =>
    obtain ⟨hx, hputs⟩ := spared_cons.mp h
    rw [putAll_cons, ih hputs, lookup?_putEntry_of_spared hx]

theorem lookup?_putAll_of_isLast {entry : Named p.Detail} (h : IsLast puts p name entry) :
    (c.putAll puts).lookup? name p = some entry := by
  obtain ⟨rfl, before, after, rfl, hafter⟩ := h
  rw [putAll_append, putAll_cons, lookup?_putAll_of_spared hafter]
  exact (isPut_putEntry (c.putAll before) p entry).found

theorem lookup?_putAll_eq_some_iff {entry : Named p.Detail} :
    (c.putAll puts).lookup? name p = some entry ↔
      IsLast puts p name entry ∨ Spared puts p name ∧ c.lookup? name p = some entry := by
  constructor
  . intro h
    rcases spared_or_isLast puts p name with hspared | ⟨entry', hlast⟩
    . rw [lookup?_putAll_of_spared hspared] at h
      exact .inr ⟨hspared, h⟩
    . rw [lookup?_putAll_of_isLast hlast] at h
      cases h
      exact .inl hlast
  . rintro (hlast | ⟨hspared, h⟩)
    . exact lookup?_putAll_of_isLast hlast
    . rw [lookup?_putAll_of_spared hspared, h]

theorem lookup?_new (name : String) (p : Part) : new.lookup? name p = none := by
  cases p with
  | clusters | contexts | users => rfl

theorem lookup?_putAll_new_of_spared (h : Spared puts p name) : (new.putAll puts).lookup? name p = none := by
  rw [lookup?_putAll_of_spared h, lookup?_new]

end Lookup

section Run

theorem SameHeader.trans {c c' c'' : Kubeconfig} (h : c.SameHeader c') (h' : c'.SameHeader c'') : c.SameHeader c'' :=
  ⟨h'.path.trans h.path, h'.apiVersion.trans h.apiVersion, h'.currentContext.trans h.currentContext,
    h'.kind.trans h.kind⟩

structure IsRun (c : Kubeconfig) (puts : List Put) (c' : Kubeconfig) : Prop where
  found : ∀ p name entry, c'.lookup? name p = some entry ↔
    IsLast puts p name entry ∨ Spared puts p name ∧ c.lookup? name p = some entry
  names : ∀ p, (c.entries p).map Named.name <+: (c'.entries p).map Named.name
  unique : ∀ p, ((c.entries p).map Named.name).Nodup → ((c'.entries p).map Named.name).Nodup
  header : c.SameHeader c'

theorem names_putEntry (c : Kubeconfig) (x : Put) (p : Part) :
    (c.entries p).map Named.name <+: ((c.putEntry x.part x.entry).2.entries p).map Named.name := by
  by_cases hpart : x.part = p
  . subst hpart
    rw [entries_putEntry, Named.names_put]
    exact List.prefix_append _ _
  . have hentries := (isPut_putEntry c x.part x.entry).lists p (Ne.symm hpart)
    exact ⟨[], by rw [List.append_nil, hentries]⟩

theorem unique_putEntry {p : Part} (x : Put) (h : ((c.entries p).map Named.name).Nodup) :
    (((c.putEntry x.part x.entry).2.entries p).map Named.name).Nodup := by
  by_cases hpart : x.part = p
  . subst hpart
    exact (isPut_putEntry c x.part x.entry).unique h
  . rw [(isPut_putEntry c x.part x.entry).lists p (Ne.symm hpart)]
    exact h

theorem isRun_putAll (c : Kubeconfig) (puts : List Put) : c.IsRun puts (c.putAll puts) := by
  constructor
  case found => exact fun p name entry => lookup?_putAll_eq_some_iff
  case names =>
    intro p
    induction puts generalizing c with
    | nil => exact List.prefix_rfl
    | cons x puts ih => exact (names_putEntry c x p).trans (ih _)
  case unique =>
    intro p h
    induction puts generalizing c with
    | nil => exact h
    | cons x puts ih => exact ih _ (unique_putEntry x h)
  case header =>
    induction puts generalizing c with
    | nil => exact ⟨rfl, rfl, rfl, rfl⟩
    | cons x puts ih => exact (sameHeader_putEntry c x.part x.entry).trans (ih _)

end Run

section Resolve

/--
What a context resolves to in a kubeconfig that had no entries before some were put. Of the references that lead
nowhere, the first one is told.
-/
inductive Resolves (puts : List Put) (name : String) : Except Error Resolved → Prop where
  | resolved {context : Context} {cluster : Cluster} {user : User} (hcontext : IsLast puts .contexts name context)
    (hcluster : IsLast puts .clusters context.detail.cluster cluster)
    (huser : IsLast puts .users context.detail.user user) :
    Resolves puts name (.ok ⟨name, context.detail.ns.getD "default", cluster.detail, user.detail⟩)
  | noContext (h : Spared puts .contexts name) : Resolves puts name (.error (.contextNotFound name))
  | noCluster {context : Context} (hcontext : IsLast puts .contexts name context)
    (h : Spared puts .clusters context.detail.cluster) :
    Resolves puts name (.error (.clusterNotFound name context.detail.cluster))
  | noUser {context : Context} {cluster : Cluster} (hcontext : IsLast puts .contexts name context)
    (hcluster : IsLast puts .clusters context.detail.cluster cluster)
    (h : Spared puts .users context.detail.user) :
    Resolves puts name (.error (.userNotFound name context.detail.user))

theorem exists_resolves (puts : List Put) (name : String) : ∃ r, Resolves puts name r := by
  rcases spared_or_isLast puts .contexts name with hspared | ⟨context, hcontext⟩
  . exact ⟨_, .noContext hspared⟩
  rcases spared_or_isLast puts .clusters context.detail.cluster with hspared | ⟨cluster, hcluster⟩
  . exact ⟨_, .noCluster hcontext hspared⟩
  rcases spared_or_isLast puts .users context.detail.user with hspared | ⟨user, huser⟩
  . exact ⟨_, .noUser hcontext hcluster hspared⟩
  . exact ⟨_, .resolved hcontext hcluster huser⟩

theorem resolve_of_resolves {r : Except Error Resolved} (h : Resolves puts name r) :
    (new.putAll puts).resolve name = r := by
  have hcontexts {context : Context} (h : IsLast puts .contexts name context) :
      (new.putAll puts).context? name = some context := lookup?_putAll_of_isLast h
  have hclusters {name : String} {cluster : Cluster} (h : IsLast puts .clusters name cluster) :
      (new.putAll puts).cluster? name = some cluster := lookup?_putAll_of_isLast h
  have husers {name : String} {user : User} (h : IsLast puts .users name user) :
      (new.putAll puts).user? name = some user := lookup?_putAll_of_isLast h
  unfold resolve
  cases h with
  | resolved hcontext hcluster huser =>
    simp only [hcontexts hcontext, hclusters hcluster, husers huser, hcontext.named]
    rfl
  | noContext hspared =>
    have hnone : (new.putAll puts).context? name = none := lookup?_putAll_new_of_spared hspared
    simp only [hnone]
  | noCluster hcontext hspared =>
    have hnone : (new.putAll puts).cluster? _ = none := lookup?_putAll_new_of_spared hspared
    simp only [hcontexts hcontext, hnone]
  | noUser hcontext hcluster hspared =>
    have hnone : (new.putAll puts).user? _ = none := lookup?_putAll_new_of_spared hspared
    simp only [hcontexts hcontext, hclusters hcluster, hnone]

theorem resolve_eq_iff {r : Except Error Resolved} : (new.putAll puts).resolve name = r ↔ Resolves puts name r := by
  constructor
  . rintro rfl
    obtain ⟨r, h⟩ := exists_resolves puts name
    rw [resolve_of_resolves h]
    exact h
  . exact resolve_of_resolves

theorem resolveCurrent_putAll (c : Kubeconfig) (puts : List Put) :
    (c.putAll puts).resolveCurrent =
      if c.currentContext = "" then .error .noCurrentContext else (c.putAll puts).resolve c.currentContext := by
  unfold resolveCurrent
  rw [(isRun_putAll c puts).header.currentContext]
  simp

end Resolve

/--
The law of entries. Each entry that is put replaces the first one of its name where that stands, or else comes last,
and all the rest stays as it is. After any number of them the last one of each name is found. From a kubeconfig
without entries, a context resolves to what was put last for it and for its references, or is told with the first of
them for which there is nothing.
-/
theorem entries_law (c : Kubeconfig) (puts : List Put) :
    (∀ before x after, puts = before ++ x :: after →
      (c.putAll before).IsPut x.part x.entry ((c.putAll before).putEntry x.part x.entry).1
        (c.putAll (before ++ [x]))) ∧
      c.IsRun puts (c.putAll puts) ∧
      (c.putAll puts).resolveCurrent =
        (if c.currentContext = "" then .error .noCurrentContext else (c.putAll puts).resolve c.currentContext) ∧
      ∀ name r, (new.putAll puts).resolve name = r ↔ Resolves puts name r := by
  refine ⟨?_, isRun_putAll c puts, resolveCurrent_putAll c puts, fun name r => resolve_eq_iff⟩
  rintro before x after -
  rw [putAll_append]
  exact isPut_putEntry (c.putAll before) x.part x.entry

section Sample

def sampleRepeated : Kubeconfig where
  path := ⟨"config"⟩
  clusters := [⟨"source", { server := "https://10.0.0.1:6443" }⟩, ⟨"source", { server := "https://10.0.0.2:6443" }⟩]
  currentContext := "kind-source"

def samplePuts : List Put :=
  [⟨.contexts, ⟨"kind-source", { cluster := "gone", user := "admin" }⟩⟩,
    ⟨.clusters, ⟨"source", { server := "https://10.0.0.3:6443" }⟩⟩,
    ⟨.users, ⟨"admin", { token := some "t" }⟩⟩,
    ⟨.contexts, ⟨"kind-source", { cluster := "source", user := "admin" }⟩⟩]

theorem entries_law_of_sample :
    (sampleRepeated.putAll (samplePuts.take 1)).IsPut .clusters ⟨"source", { server := "https://10.0.0.3:6443" }⟩
        (some ⟨"source", { server := "https://10.0.0.1:6443" }⟩) (sampleRepeated.putAll (samplePuts.take 2)) ∧
      (new.putAll (samplePuts.take 3)).resolve "kind-source" = .error (.clusterNotFound "kind-source" "gone") ∧
      (new.putAll samplePuts).resolve "kind-source" =
        .ok ⟨"kind-source", "default", { server := "https://10.0.0.3:6443" }, { token := some "t" }⟩ := by
  obtain ⟨hput, -, -, hresolve⟩ := entries_law sampleRepeated samplePuts
  obtain ⟨-, -, -, hresolve'⟩ := entries_law sampleRepeated (samplePuts.take 3)
  refine ⟨hput (samplePuts.take 1) _ (samplePuts.drop 2) rfl, (hresolve' _ _).mpr ?_, (hresolve _ _).mpr ?_⟩
  . have hcontext : IsLast (samplePuts.take 3) .contexts "kind-source"
        ⟨"kind-source", { cluster := "gone", user := "admin" }⟩ :=
      ⟨rfl, [], _, rfl, by decide +kernel⟩
    exact .noCluster hcontext (by decide +kernel)
  . have hcontext : IsLast samplePuts .contexts "kind-source"
        ⟨"kind-source", { cluster := "source", user := "admin" }⟩ :=
      ⟨rfl, samplePuts.take 3, [], rfl, by decide +kernel⟩
    have hcluster : IsLast samplePuts .clusters "source" ⟨"source", { server := "https://10.0.0.3:6443" }⟩ :=
      ⟨rfl, samplePuts.take 1, samplePuts.drop 2, rfl, by decide +kernel⟩
    have huser : IsLast samplePuts .users "admin" ⟨"admin", { token := some "t" }⟩ :=
      ⟨rfl, samplePuts.take 2, samplePuts.drop 3, rfl, by decide +kernel⟩
    exact .resolved hcontext hcluster huser

end Sample

end ClusterRegistration.Kubeconfig
