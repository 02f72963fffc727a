import ClusterRegistration.Client.Exchange
import ClusterRegistration.Proofs.Uri

namespace ClusterRegistration

structure Resource where
  definition : Definition
  namespaced : Bool
  status : Json

def Kind.resource (k : Kind) : Resource :=
  ⟨k.definition, k.isNamespaced, k.statusToJson default⟩

namespace Resource

def all : List Resource :=
  Kind.all.map Kind.resource

def find? (group version plural : String) : Option Resource :=
  all.find? fun r =>
    r.definition.group == group && r.definition.version == version && r.definition.plural == plural

end Resource

inductive Place where
  | item (r : Resource) (ns name : String)
  | collection (r : Resource) (ns : Option String)

namespace Address

def scopeNames : Scope → List String
  | .all => []
  | .inNamespace ns => [ns]

def confinement (k : Kind) (scope : Scope) : Option String :=
  match scopeOf k scope with
  | .all => none
  | .inNamespace ns => some ns

end Address

namespace Place

def segments (path : List Char) : List String :=
  (path.splitOn '/').map String.ofList

def locate (group version : String) : List String → Option Place
  | [plural] =>
    (Resource.find? group version plural).map (fun r => collection r none)
  | [plural, name] =>
    ((Resource.find? group version plural).filter (fun r => !r.namespaced)).map
      (fun r => item r "" name)
  | ["namespaces", ns, plural] =>
    ((Resource.find? group version plural).filter (·.namespaced)).map
      (fun r => collection r (some ns))
  | ["namespaces", ns, plural, name] =>
    ((Resource.find? group version plural).filter (·.namespaced)).map (fun r => item r ns name)
  | _ => none

def ofNames? : List String → Option Place
  | "api" :: version :: names => locate "core" version names
  | "apis" :: group :: version :: names => locate group version names
  | _ => none

def ofPath? (root path : List Char) : Option Place :=
  match (path.dropPrefix? root).map segments with
  | some ("" :: names) => ofNames? names
  | _ => none

def ofUri? (base uri : Uri) : Option Place :=
  if uri.scheme = base.scheme ∧ uri.authority = base.authority ∧ uri.query = none then
    ofPath? (Uri.dropSlashes base.path.toList) uri.path.toList
  else none

def pathOf (names : List String) : List Char :=
  names.flatMap (fun name => '/' :: name.toList)

theorem pathOf_append (names names' : List String) :
    pathOf (names ++ names') = pathOf names ++ pathOf names' :=
  List.flatMap_append

theorem segments_pathOf {names : List String} (h : ∀ name ∈ names, '/' ∉ name.toList) :
    segments (pathOf names) = "" :: names := by
  have hsplit : ∀ (names : List String) (cs : List Char), (∀ name ∈ names, '/' ∉ name.toList) →
      '/' ∉ cs → (cs ++ pathOf names).splitOn '/' = cs :: names.map String.toList := by
    intro names
    induction names with
    | nil =>
      intro cs _ hcs
      rw [pathOf, List.flatMap_nil, List.append_nil, List.splitOn_eq_singleton hcs]
      rfl
    | cons name names ih =>
      intro cs h hcs
      have hname := h name List.mem_cons_self
      have hnames := ih name.toList (fun n hn => h n (List.mem_cons_of_mem _ hn)) hname
      rw [pathOf, List.flatMap_cons, List.cons_append, List.splitOn_append_cons_self,
        List.splitOn_eq_singleton hcs]
      rw [pathOf] at hnames
      rw [hnames]
      rfl
  have hnames := hsplit names [] h List.not_mem_nil
  rw [List.nil_append] at hnames
  unfold segments
  rw [hnames, List.map_cons, List.map_map]
  simp

def collectionNames (d : Definition) (scope : Scope) : List String :=
  (if d.group = "core" then ["api"] else ["apis", d.group]) ++ d.version ::
    match scope with
    | .all => [d.plural]
    | .inNamespace ns => ["namespaces", ns, d.plural]

theorem collectionText_eq (d : Definition) (host : String) (scope : Scope) :
    Address.collectionText d host scope =
      Address.dropTrailingSlashes host ++ String.ofList (pathOf (collectionNames d scope)) := by
  rw [← String.toList_inj]
  unfold Address.collectionText Address.apiRoot collectionNames pathOf
  cases scope with
  | all => split <;> simp
  | inNamespace ns => split <;> simp

end Place

def isDnsChar (c : Char) : Bool :=
  c.isAlphanum || c == '-' || c == '.'

structure IsDnsName (s : String) : Prop where
  ne_empty : s ≠ ""
  chars : ∀ c ∈ s.toList, isDnsChar c = true

instance (s : String) : Decidable (IsDnsName s) :=
  decidable_of_iff (s ≠ "" ∧ s.toList.all isDnsChar = true)
    ⟨fun h => ⟨h.1, List.all_eq_true.mp h.2⟩, fun h => ⟨h.1, List.all_eq_true.mpr h.2⟩⟩

theorem isPathChar_of_isDnsChar {c : Char} (h : isDnsChar c = true) : Uri.isPathChar c = true := by
  have h : ((((decide ('A'.val ≤ c.val ∧ c.val ≤ 'Z'.val) ||
      (decide ('a'.val ≤ c.val) && decide (c.val ≤ 'z'.val))) ||
      (decide ('0'.val ≤ c.val) && decide (c.val ≤ '9'.val))) || c == '-') || c == '.') = true := h
  simp only [Bool.or_eq_true, Bool.and_eq_true, decide_eq_true_eq, beq_iff_eq,
    UInt32.le_iff_toNat_le] at h
  have hval : c.toNat = c.val.toNat := rfl
  simp only [Uri.isPathChar, hval, Bool.or_eq_true, Bool.and_eq_true, decide_eq_true_eq, beq_iff_eq]
  rcases h with (((h | h) | h) | rfl) | rfl
  . have hlow : 65 ≤ c.val.toNat := h.1
    have hhigh : c.val.toNat ≤ 90 := h.2
    omega
  . have hlow : 97 ≤ c.val.toNat := h.1
    have hhigh : c.val.toNat ≤ 122 := h.2
    omega
  . have hlow : 48 ≤ c.val.toNat := h.1
    have hhigh : c.val.toNat ≤ 57 := h.2
    omega
  . decide
  . decide

theorem isQueryChar_of_isDnsChar {c : Char} (h : isDnsChar c = true) : Uri.isQueryChar c = true := by
  apply Uri.isQueryChar_of_isPathChar (isPathChar_of_isDnsChar h)
  rintro rfl
  cases h

theorem ne_slash_of_isDnsChar {c : Char} (h : isDnsChar c = true) : c ≠ '/' := by
  rintro rfl
  cases h

namespace Place

variable {names : List String}

theorem forall_mem_pathOf {p : Char → Bool} (hslash : p '/' = true) (hp : ∀ c, isDnsChar c = true → p c = true)
    (h : ∀ name ∈ names, ∀ c ∈ name.toList, isDnsChar c = true) : ∀ c ∈ pathOf names, p c = true := by
  intro c hc
  obtain ⟨name, hname, hc⟩ := List.mem_flatMap.mp hc
  rcases List.mem_cons.mp hc with rfl | hc
  . exact hslash
  . exact hp c (h name hname c hc)

theorem isPathChar_pathOf (h : ∀ name ∈ names, ∀ c ∈ name.toList, isDnsChar c = true) :
    ∀ c ∈ pathOf names, Uri.isPathChar c = true :=
  forall_mem_pathOf rfl (fun _ => isPathChar_of_isDnsChar) h

theorem isQueryChar_pathOf (h : ∀ name ∈ names, ∀ c ∈ name.toList, isDnsChar c = true) :
    ∀ c ∈ pathOf names, Uri.isQueryChar c = true :=
  forall_mem_pathOf rfl (fun _ => isQueryChar_of_isDnsChar) h

theorem ofPath?_pathOf (root : List Char) (h : ∀ name ∈ names, ∀ c ∈ name.toList, isDnsChar c = true) :
    ofPath? root (root ++ pathOf names) = ofNames? names := by
  have hslash : ∀ name ∈ names, '/' ∉ name.toList :=
    fun name hname hmem => ne_slash_of_isDnsChar (h name hname _ hmem) rfl
  unfold ofPath?
  rw [List.dropPrefix?_append_of_beq _ (beq_self_eq_true root), Option.map_some, segments_pathOf hslash]
  rfl

theorem isDnsChar_definition (k : Kind) :
    ∀ name ∈ collectionNames k.definition .all, ∀ c ∈ name.toList, isDnsChar c = true := by
  have hall : (collectionNames k.definition .all).all (·.toList.all isDnsChar) = true := by
    cases k <;> decide
  intro name hname
  exact List.all_eq_true.mp (List.all_eq_true.mp hall name hname)

theorem isDnsChar_collectionNames (k : Kind) (scope : Scope)
    (h : ∀ name ∈ Address.scopeNames scope, IsDnsName name) :
    ∀ name ∈ collectionNames k.definition scope, ∀ c ∈ name.toList, isDnsChar c = true := by
  have hdefinition := isDnsChar_definition k
  cases scope with
  | all => exact hdefinition
  | inNamespace ns =>
    intro name hname
    simp only [collectionNames, List.mem_append, List.mem_cons] at hname hdefinition
    rcases hname with hname | hname | rfl | rfl | hname
    . exact hdefinition name (.inl hname)
    . exact hdefinition name (.inr (.inl hname))
    . exact List.all_eq_true.mp rfl
    . exact (h _ List.mem_cons_self).chars
    . exact hdefinition name (.inr (.inr hname))

theorem head?_pathOf_collectionNames (d : Definition) (scope : Scope) :
    (pathOf (collectionNames d scope)).head? = some '/' := by
  unfold collectionNames
  split <;> rfl

def itemNames (k : Kind) (item : ItemName) : List String :=
  collectionNames k.definition (Address.scopeOf k (.inNamespace item.ns)) ++ [item.name]

theorem ofNames?_itemNames (k : Kind) (item : ItemName) :
    ofNames? (itemNames k item) =
      some (.item k.resource (if k.isNamespaced then item.ns else "") item.name) := by
  cases k <;> rfl

theorem ofNames?_collectionNames (k : Kind) (scope : Scope) :
    ofNames? (collectionNames k.definition (Address.scopeOf k scope)) =
      some (.collection k.resource (Address.confinement k scope)) := by
  cases scope with
  | all => cases k <;> rfl
  | inNamespace ns => cases k <;> rfl

end Place

end ClusterRegistration
