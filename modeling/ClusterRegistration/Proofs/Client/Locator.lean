import ClusterRegistration.Proofs.Client.Message
import ClusterRegistration.Proofs.Uri.Text

/-!
This module contains the proof that addresses tell apart what is looked for: addresses with the same text are
those of the same object, or of all objects of the same kind in the same namespace or in the cluster.
-/

namespace ClusterRegistration

inductive Locator where
  | item (k : Kind) (item : ItemName)
  | collection (k : Kind) (scope : Scope)

inductive Locator.Extent where
  | object
  | objectsInNamespace
  | objectsInCluster

namespace Locator

def kind : Locator → Kind
  | item k _ => k
  | collection k _ => k

def name? : Locator → Option String
  | item _ i => some i.name
  | collection _ _ => none

def ns? : Locator → Option String
  | item _ i => some i.ns
  | collection _ (.inNamespace ns) => some ns
  | collection _ .all => none

def confinement (l : Locator) : Option String :=
  if l.kind.isNamespaced then l.ns? else none

def extent (l : Locator) : Extent :=
  match l.name?, l.confinement with
  | some _, _ => .object
  | none, some _ => .objectsInNamespace
  | none, none => .objectsInCluster

def names (l : Locator) : List String :=
  l.name?.toList ++ l.confinement.toList

def uri (host : String) : Locator → Except Uri.Error Uri
  | item k i => Address.item k host i.name i.ns
  | collection k scope => Address.items k host scope

def groupPath (d : Definition) : String :=
  if d.group = "core" then "/api/" ++ d.version else "/apis/" ++ d.group ++ "/" ++ d.version

def path (l : Locator) : String :=
  let ns :=
    match l.confinement with
    | some ns => "/namespaces/" ++ ns
    | none => ""
  let name :=
    match l.name? with
    | some name => "/" ++ name
    | none => ""
  groupPath l.kind.definition ++ ns ++ "/" ++ l.kind.definition.plural ++ name

/--
Two addresses lead to the same. For cluster-scoped kinds it does not matter which namespace is asked for.
-/
structure Same (a b : Locator) : Prop where
  extent : a.extent = b.extent
  group : a.kind.definition.group = b.kind.definition.group
  version : a.kind.definition.version = b.kind.definition.version
  plural : a.kind.definition.plural = b.kind.definition.plural
  namespaced : a.kind.isNamespaced = b.kind.isNamespaced
  name : a.name? = b.name?
  ns : a.kind.isNamespaced = true → a.ns? = b.ns?

def request : Locator → Request
  | item k i => .get k i
  | collection k scope => .list k scope

variable {l : Locator} {host : String}

theorem names_request (l : Locator) : l.request.names = l.names := by
  cases l with
  | item k i => cases k <;> rfl
  | collection k scope => cases scope <;> cases k <;> rfl

def groupNames (d : Definition) : List String :=
  (if d.group = "core" then ["api"] else ["apis", d.group]) ++ [d.version]

theorem toList_groupPath (d : Definition) : (groupPath d).toList = Place.pathOf (groupNames d) := by
  unfold groupPath groupNames Place.pathOf
  split <;> simp

theorem collectionNames_eq (d : Definition) (scope : Scope) :
    Place.collectionNames d scope =
      groupNames d ++ (match scope with | .all => [d.plural] | .inNamespace ns => ["namespaces", ns, d.plural]) := by
  unfold Place.collectionNames groupNames
  rw [List.append_assoc]
  rfl

theorem addressNames_request (l : Locator) :
    l.request.addressNames =
      groupNames l.kind.definition ++ (l.confinement.elim [] (["namespaces", ·]) ++
        l.kind.definition.plural :: l.name?.toList) := by
  cases l with
  | item k i =>
    cases hk : k.isNamespaced <;>
      simp [request, Request.addressNames, Place.itemNames, collectionNames_eq, Address.scopeOf, confinement,
        kind, name?, ns?, hk]
  | collection k scope =>
    cases hk : k.isNamespaced <;> cases scope <;>
      simp [request, Request.addressNames, collectionNames_eq, Address.scopeOf, confinement, kind, name?, ns?, hk]

theorem toList_path (l : Locator) : l.path.toList = Place.pathOf l.request.addressNames := by
  rw [addressNames_request, Place.pathOf_append, ← toList_groupPath]
  unfold path Place.pathOf
  cases l.confinement <;> cases l.name? <;> simp

theorem uri_eq (host : String) (l : Locator) :
    l.uri host = Uri.parse (Address.dropTrailingSlashes host ++ l.path) := by
  have haddress : l.uri host = (⟨host, none⟩ : Client.Session).address l.request := by
    cases l <;> rfl
  rw [haddress, Client.Session.address_eq, Request.addressText, ← toList_path, String.ofList_toList]

theorem exists_pathOf_eq (l : Locator) : ∃ cs, Place.pathOf l.request.addressNames = '/' :: 'a' :: cs := by
  rw [addressNames_request]
  unfold groupNames
  split <;> exact ⟨_, rfl⟩

theorem isDnsChar_addressNames (h : ∀ name ∈ l.names, IsDnsName name) :
    ∀ name ∈ l.request.addressNames, ∀ c ∈ name.toList, isDnsChar c = true :=
  Client.Session.isDnsChar_addressNames (l.names_request ▸ h)

section Below

variable {server : String} {base : Uri}

def uriBelow (base : Uri) (l : Locator) : Uri :=
  ⟨some "https", base.authority, Address.dropTrailingSlashes base.path ++ l.path, none⟩

theorem isChar_path (h : ∀ name ∈ l.names, IsDnsName name) :
    ∀ c ∈ l.path.toList, Uri.isPathChar c = true ∧ Uri.isQueryChar c = true := by
  rw [toList_path]
  have hchars := isDnsChar_addressNames h
  exact fun c hc => ⟨Place.isPathChar_pathOf hchars c hc, Place.isQueryChar_pathOf hchars c hc⟩

theorem head?_path (l : Locator) : l.path.toList.head? = some '/' := by
  obtain ⟨cs, hcs⟩ := exists_pathOf_eq l
  rw [toList_path, hcs]
  rfl

theorem uri_of_plain (hbase : Uri.parse server = .ok base) (hscheme : base.scheme = some "https")
    (hnames : ∀ name ∈ l.names, IsDnsName name)
    (hlength : (Address.dropTrailingSlashes server ++ l.path).utf8ByteSize ≤ Uri.maxLength)
    (h : ∀ c ∈ server.toList, c ≠ '?' ∧ c ≠ '#') : l.uri server = .ok (l.uriBelow base) :=
  (l.uri_eq server).trans
    (Uri.parse_below hbase hscheme h (fun c hc => (isChar_path hnames c hc).1) l.head?_path hlength)

end Below

theorem ne_of_isDnsChar {c : Char} (h : isDnsChar c = true) : c ≠ '?' ∧ c ≠ '#' := by
  constructor
  . rintro rfl
    cases h
  . rintro rfl
    cases h

theorem exists_text (hplain : ∀ c ∈ host.toList, c ≠ '?' ∧ c ≠ '#') (hl : ∀ name ∈ l.names, IsDnsName name)
    {u : Uri} (hu : l.uri host = .ok u) :
    ∃ front : List Char, front.length = (Uri.dropSlashes host.toList).length ∧
      u.text.toList = front ++ Place.pathOf l.request.addressNames := by
  obtain ⟨cs, hpath⟩ := exists_pathOf_eq l
  have htext : (Address.dropTrailingSlashes host ++ l.path).toList =
      Uri.dropSlashes host.toList ++ Place.pathOf l.request.addressNames := by
    rw [Uri.toList_below, toList_path]
  rw [uri_eq] at hu
  rw [hpath] at htext ⊢
  refine Uri.exists_text_of_parse ?_ htext (Uri.dropSlashes_ne_concat _) (by decide) hu
  intro c hc
  rw [htext, ← hpath] at hc
  rcases List.mem_append.mp hc with hc | hc
  . exact hplain c ((Uri.prefix_dropSlashes _).subset hc)
  . obtain ⟨name, hname, hc⟩ := List.mem_flatMap.mp hc
    rcases List.mem_cons.mp hc with rfl | hc
    . decide
    . exact ne_of_isDnsChar (isDnsChar_addressNames hl name hname c hc)

def place : Locator → Place
  | item k i => .item k.resource (if k.isNamespaced then i.ns else "") i.name
  | collection k scope => .collection k.resource (Address.confinement k scope)

theorem ofNames?_addressNames (l : Locator) : Place.ofNames? l.request.addressNames = some l.place := by
  cases l with
  | item k i => exact Place.ofNames?_itemNames k i
  | collection k scope => exact Place.ofNames?_collectionNames k scope

variable {a b : Locator}

theorem place_eq_of_text (hplain : ∀ c ∈ host.toList, c ≠ '?' ∧ c ≠ '#')
    (ha : ∀ name ∈ a.names, IsDnsName name) (hb : ∀ name ∈ b.names, IsDnsName name) {u v : Uri}
    (hu : a.uri host = .ok u) (hv : b.uri host = .ok v) (h : u.text = v.text) : a.place = b.place := by
  obtain ⟨front, hfront, hutext⟩ := exists_text hplain ha hu
  obtain ⟨front', hfront', hvtext⟩ := exists_text hplain hb hv
  rw [h, hvtext] at hutext
  have hpath := (List.append_inj hutext (hfront'.trans hfront.symm)).2
  have hslash {l : Locator} (hl : ∀ name ∈ l.names, IsDnsName name) :
      ∀ name ∈ l.request.addressNames, '/' ∉ name.toList :=
    fun name hname hmem => ne_slash_of_isDnsChar (isDnsChar_addressNames hl name hname _ hmem) rfl
  have hsegments := congrArg Place.segments hpath
  rw [Place.segments_pathOf (hslash ha), Place.segments_pathOf (hslash hb)] at hsegments
  have hplace := ofNames?_addressNames b
  rw [(List.cons.inj hsegments).2, ofNames?_addressNames] at hplace
  exact Option.some.inj hplace

theorem confinement_item (k : Kind) (i : ItemName) :
    (item k i).confinement = if k.isNamespaced then some i.ns else none :=
  rfl

theorem confinement_collection (k : Kind) (scope : Scope) :
    (collection k scope).confinement = Address.confinement k scope := by
  unfold confinement Address.confinement Address.scopeOf
  cases hk : k.isNamespaced <;> cases scope <;> simp [kind, ns?, hk]

theorem parts_of_place (h : a.place = b.place) :
    a.kind.resource = b.kind.resource ∧ a.name? = b.name? ∧ a.confinement = b.confinement := by
  cases a with
  | item k i =>
    cases b with
    | item k' i' =>
      obtain ⟨hresource, hns, hname⟩ := Place.item.inj h
      have hnamespaced : k.isNamespaced = k'.isNamespaced := congrArg Resource.namespaced hresource
      refine ⟨hresource, congrArg some hname, ?_⟩
      rw [confinement_item, confinement_item, hnamespaced]
      rw [hnamespaced] at hns
      split
      . next hk =>
        rw [if_pos hk, if_pos hk] at hns
        rw [hns]
      . rfl
    | collection k' scope => cases h
  | collection k scope =>
    cases b with
    | item k' i' => cases h
    | collection k' scope' =>
      obtain ⟨hresource, hns⟩ := Place.collection.inj h
      rw [confinement_collection, confinement_collection]
      exact ⟨hresource, rfl, hns⟩

theorem same_of_place (h : a.place = b.place) : a.Same b := by
  obtain ⟨hresource, hname, hconfinement⟩ := parts_of_place h
  have hdefinition : a.kind.definition = b.kind.definition := congrArg Resource.definition hresource
  have hnamespaced : a.kind.isNamespaced = b.kind.isNamespaced := congrArg Resource.namespaced hresource
  refine ⟨?_, congrArg _ hdefinition, congrArg _ hdefinition, congrArg _ hdefinition, hnamespaced, hname, ?_⟩
  . unfold extent
    rw [hname, hconfinement]
  . intro hk
    unfold confinement at hconfinement
    rw [if_pos hk, if_pos (hnamespaced ▸ hk)] at hconfinement
    exact hconfinement

theorem confinement_of_same (h : a.Same b) : a.confinement = b.confinement := by
  unfold confinement
  rw [← h.namespaced]
  split
  . next hk => exact h.ns hk
  . rfl

theorem uri_of_same (h : a.Same b) (host : String) : a.uri host = b.uri host := by
  have hpath : a.path = b.path := by
    unfold path groupPath
    rw [h.group, h.version, h.plural, h.name, confinement_of_same h]
  rw [uri_eq, uri_eq, hpath]

theorem same_of_cluster_scoped (h : a.kind.isNamespaced = false) (hkind : b.kind = a.kind)
    (hname : a.name? = b.name?) : a.Same b := by
  have hconfinement : a.confinement = b.confinement := by
    unfold confinement
    rw [hkind, h]
    rfl
  refine ⟨?_, by rw [hkind], by rw [hkind], by rw [hkind], by rw [hkind], hname, fun hk => ?_⟩
  . unfold extent
    rw [hname, hconfinement]
  . rw [h] at hk
    cases hk

theorem path_ne_of_isNamespaced {k : Kind} (hk : k.isNamespaced = true) (ns : String) :
    (collection k .all).path ≠ (collection k (.inNamespace ns)).path := by
  intro h
  have hlength := congrArg String.length h
  simp [path, confinement, kind, ns?, name?, hk] at hlength

theorem exists_uri_ne {k : Kind} (hk : k.isNamespaced = true) :
    ∃ host, (collection k .all).uri host ≠ (collection k (.inNamespace "apps")).uri host := by
  have hbase : Uri.parse "https://10.0.0.1:6443" = .ok ⟨some "https", "10.0.0.1:6443", "", none⟩ := by decide
  have huri {scope : Scope} (hnames : ∀ name ∈ (collection k scope).names, IsDnsName name)
      (hlength : ("https://10.0.0.1:6443" ++ (collection k scope).path).utf8ByteSize ≤ Uri.maxLength) :=
    uri_of_plain hbase rfl hnames hlength (Uri.plain_of_all (by decide))
  refine ⟨"https://10.0.0.1:6443", ?_⟩
  rw [huri (by cases k <;> decide) (by cases k <;> decide), huri (by cases k <;> decide) (by cases k <;> decide)]
  intro h
  have hpath := congrArg Uri.path (Except.ok.inj h)
  rw [uriBelow, uriBelow, String.append_right_inj] at hpath
  exact path_ne_of_isNamespaced hk "apps" hpath

/--
The law of addresses. Two addresses have the same text exactly if they lead to the same: to an object, to
the objects in a namespace, or to those in the cluster, with the same kind, name and namespace. The namespace
does not matter exactly for the kinds that are cluster-scoped.
-/
theorem identity_law :
    (∀ (host : String) (a b : Locator) (u v : Uri), (∀ c ∈ host.toList, c ≠ '?' ∧ c ≠ '#') →
      (∀ name ∈ a.names, IsDnsName name) → (∀ name ∈ b.names, IsDnsName name) →
        a.uri host = .ok u → b.uri host = .ok v → (u.text = v.text ↔ a.Same b)) ∧
      ∀ k : Kind, k.isNamespaced = false ↔
        ∀ (host : String) (a b : Locator), a.kind = k → b.kind = k → a.name? = b.name? →
          a.uri host = b.uri host := by
  refine ⟨fun host a b u v hplain ha hb hu hv => ⟨fun h => ?_, fun h => ?_⟩, fun k => ⟨?_, fun h => ?_⟩⟩
  . exact same_of_place (place_eq_of_text hplain ha hb hu hv h)
  . rw [uri_of_same h, hv] at hu
    cases hu
    rfl
  . rintro hk host a b rfl hb hname
    exact uri_of_same (same_of_cluster_scoped hk hb hname) host
  . by_contra hk
    have hk : k.isNamespaced = true := by simpa using hk
    obtain ⟨host, hne⟩ := exists_uri_ne hk
    exact hne (h host (collection k .all) (collection k (.inNamespace "apps")) rfl rfl rfl)

section Sample

def sampleHost : String :=
  "HTTPS://10.0.0.1:6443/clusters/a//"

def sampleItem : Locator :=
  item .secret ⟨"secrets", "apps"⟩

def sampleCollection : Locator :=
  collection .secret (.inNamespace "apps")

theorem identity_law_of_sample :
    (∀ c ∈ sampleHost.toList, c ≠ '?' ∧ c ≠ '#') ∧ (∀ name ∈ sampleItem.names, IsDnsName name) ∧
      (∀ name ∈ sampleCollection.names, IsDnsName name) ∧
      ∃ u v, sampleItem.uri sampleHost = .ok u ∧ sampleCollection.uri sampleHost = .ok v ∧ u.text ≠ v.text := by
  have hplain : ∀ c ∈ sampleHost.toList, c ≠ '?' ∧ c ≠ '#' := Uri.plain_of_all (by decide)
  have hitem : ∀ name ∈ sampleItem.names, IsDnsName name := by decide
  have hcollection : ∀ name ∈ sampleCollection.names, IsDnsName name := by decide
  refine ⟨hplain, hitem, hcollection, _, _, rfl, rfl, fun h => ?_⟩
  have hsame := (identity_law.1 sampleHost sampleItem sampleCollection _ _ hplain hitem hcollection rfl rfl).mp h
  cases hsame.name

end Sample

end Locator

end ClusterRegistration
