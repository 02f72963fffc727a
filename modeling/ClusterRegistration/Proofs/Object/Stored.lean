import Mathlib.Data.List.Permutation
import ClusterRegistration.Proofs.OrderedMap
import ClusterRegistration.Proofs.Record.Alike
import ClusterRegistration.Store.Basic

namespace ClusterRegistration

open Json Record

namespace Json

theorem canonicalMembers_map {α : Type} (f : α → String × Json) (as : List α) :
    canonicalMembers (as.map f) = as.map (fun a => ((f a).1, (f a).2.canonical)) := by
  induction as with
  | nil => rfl
  | cons a as ih => rw [List.map_cons, List.map_cons, canonicalMembers, ih]

theorem canonicalItems_map {α : Type} (f : α → Json) (as : List α) :
    canonicalItems (as.map f) = as.map (fun a => (f a).canonical) := by
  induction as with
  | nil => rfl
  | cons a as ih => rw [List.map_cons, List.map_cons, canonicalItems, ih]

namespace Item

theorem list_map {α : Type} (read : Item → Reader α) (write : α → Json) (o : Origin) (as : List α)
    (h : ∀ a ∈ as, read ⟨o, write a⟩ = .ok a) :
    list read ⟨o, .array (as.map write)⟩ = .ok as := by
  simp only [list]
  induction as with
  | nil => rfl
  | cons a as ih =>
    have ih := ih (fun b hb => h b (List.mem_cons_of_mem a hb))
    rw [List.map_cons, List.mapM_cons, h a List.mem_cons_self, ih]
    rfl

theorem integer_of_mem {low high i : Int} (type : String) (o : Origin) (h : low ≤ i ∧ i ≤ high) :
    integer low high type ⟨o, Json.integer i⟩ = .ok i := by
  have hrange : (decide (low ≤ i) && decide (i ≤ high)) = true := by
    simp [h]
  simp only [integer, Json.integer, integerOf]
  rw [if_pos hrange]

def readMember {ρ : Type} (fields : List (Field Item Reader ρ)) (o : Origin) (p : Partial ρ)
    (m : String × Json) : Reader (Partial ρ) :=
  Partial.step (fun _ _ => pure id) fields p m.1 ⟨o, m.2⟩

variable {ρ : Type} {fields : List (Field Item Reader ρ)} {o : Origin} {p : Partial ρ} {key : String}
  {ms : List (String × Json)} {presence : Presence}

theorem record_object (name : String) (start : ρ) (ms : List (String × Json)) :
    (Source.record name fields start (⟨o, .object ms⟩ : Item) : Reader ρ) =
      ms.foldlM (readMember fields o) (Partial.start start) >>= fun p => p.finish fields :=
  rfl

theorem foldlM_readMember {α : Type} {j : Json} {read : Item → Reader α} {set : α → ρ → ρ} {a : α}
    (hread : read ⟨o, j⟩ = .ok a)
    (hfield : fields.find? (·.key == key) = some ⟨key, presence, fun node => set <$> read node⟩)
    (hseen : p.seen.contains key = false) :
    ((key, j) :: ms).foldlM (readMember fields o) p =
      ms.foldlM (readMember fields o) ⟨key :: p.seen, set a p.value⟩ := by
  have hstep : readMember fields o p (key, j) = .ok ⟨key :: p.seen, set a p.value⟩ := by
    simp only [readMember, Partial.step, hfield, hseen, hread]
    rfl
  rw [List.foldlM_cons, hstep]
  rfl

theorem foldlM_readMember_text {s : String} {set : String → ρ → ρ}
    (hfield : fields.find? (·.key == key) = some ⟨key, presence, fun node => set <$> text node⟩)
    (hseen : p.seen.contains key = false) :
    ((key, .text s) :: ms).foldlM (readMember fields o) p =
      ms.foldlM (readMember fields o) ⟨key :: p.seen, set s p.value⟩ :=
  foldlM_readMember rfl hfield hseen

end Item

end Json

theorem Dictionary.canonical_toJson (d : Dictionary) : d.toJson.canonical = d.toJson := by
  have h : canonicalMembers (d.entries.map (fun e => (e.1, .text e.2))) =
      (⟨d.entries.map (fun e => (e.1, Json.text e.2)),
        List.pairwise_map.mpr d.sorted⟩ : OrderedMap String Json).entries := by
    rw [canonicalMembers_map]
    rfl
  rw [Dictionary.toJson, canonical, h, OrderedMap.ofList_entries]

theorem Dictionary.read_members (o : Origin) (es entries : List (String × String)) :
    (entries.map (fun e => (e.1, Json.text e.2))).foldlM
        (fun es e => (do return es ++ [(e.1, ← Source.text (⟨o, e.2⟩ : Item))] : Item.Reader _)) es =
      .ok (es ++ entries) := by
  induction entries generalizing es with
  | nil => simp [pure, Except.pure]
  | cons e entries ih =>
    have hstep : (do return es ++ [(e.1, ← Source.text (⟨o, .text e.2⟩ : Item))] : Item.Reader _) =
        .ok (es ++ [e]) :=
      rfl
    rw [List.map_cons, List.foldlM_cons, hstep]
    have := ih (es ++ [e])
    rw [List.append_assoc, List.singleton_append] at this
    exact this

theorem Dictionary.read_toJson (o : Origin) (d : Dictionary) :
    (Dictionary.read (⟨o, d.toJson⟩ : Item) : Item.Reader Dictionary) = .ok d := by
  have h := Dictionary.read_members o [] d.entries
  have hread : (Dictionary.read (⟨o, d.toJson⟩ : Item) : Item.Reader Dictionary) =
      OrderedMap.ofList <$> ((d.entries.map (fun e => (e.1, Json.text e.2))).foldlM
        (fun es e => (do return es ++ [(e.1, ← Source.text (⟨o, e.2⟩ : Item))] : Item.Reader _)) []) :=
    rfl
  rw [hread, h, List.nil_append]
  simp only [Functor.map, Except.map]
  rw [OrderedMap.ofList_entries]

theorem LocalReference.canonical_toJson (r : LocalReference) : r.toJson.canonical = r.toJson := by
  rfl

theorem LocalReference.read_toJson (o : Origin) (r : LocalReference) :
    (LocalReference.read (⟨o, r.toJson⟩ : Item) : Item.Reader LocalReference) = .ok r := by
  rfl

theorem OwnerReference.canonical_toJson (r : OwnerReference) : r.toJson.canonical = r.toJson := by
  have h : (ofOption .flag r.controller).canonical = ofOption .flag r.controller := by
    cases r.controller <;> rfl
  simp only [OwnerReference.toJson, canonical, canonicalMembers, h]
  cbv

theorem OwnerReference.read_toJson (o : Origin) (r : OwnerReference) :
    (OwnerReference.read (⟨o, r.toJson⟩ : Item) : Item.Reader OwnerReference) = .ok r := by
  obtain ⟨_, _, controller, _, _, _⟩ := r
  cases controller <;> rfl

namespace ObjectMeta

def Fits (m : ObjectMeta) : Prop :=
  ∀ g ∈ m.generation, -2147483648 ≤ g ∧ g ≤ 2147483647

theorem canonical_toJson (m : ObjectMeta) :
    m.toJson.canonical = .object [
      ("annotations", m.annotations.toJson),
      ("creationTimestamp", .text m.creationTimestamp),
      ("deletionTimestamp", ofOption .text m.deletionTimestamp),
      ("finalizers", .array (m.finalizers.map .text)),
      ("generation", ofOption Json.integer m.generation),
      ("labels", m.labels.toJson),
      ("name", .text m.name),
      ("namespace", .text m.ns),
      ("ownerReferences", .array (m.owners.map OwnerReference.toJson)),
      ("resourceVersion", .text m.resourceVersion),
      ("uid", .text m.uid)] := by
  have hgeneration : (ofOption Json.integer m.generation).canonical =
      ofOption Json.integer m.generation := by
    cases m.generation <;> rfl
  have hdeletion : (ofOption .text m.deletionTimestamp).canonical =
      ofOption .text m.deletionTimestamp := by
    cases m.deletionTimestamp <;> rfl
  simp only [toJson, canonical, canonicalMembers, canonicalItems_map, hgeneration, hdeletion,
    Dictionary.canonical_toJson, OwnerReference.canonical_toJson]
  cbv

theorem read_generation (o : Origin) {g : Option Int}
    (h : ∀ i ∈ g, -2147483648 ≤ i ∧ i ≤ 2147483647) :
    Item.optional (Item.integer (-2147483648) 2147483647 "i32") ⟨o, ofOption Json.integer g⟩ =
      .ok g := by
  cases g with
  | none => rfl
  | some i =>
    have hread := Item.integer_of_mem "i32" o (h i rfl)
    show some <$> Item.integer (-2147483648) 2147483647 "i32" ⟨o, Json.integer i⟩ = _
    rw [hread]
    rfl

theorem read_canonical (o : Origin) {m : ObjectMeta} (h : m.Fits) :
    (ObjectMeta.read (⟨o, m.toJson.canonical⟩ : Item) : Item.Reader ObjectMeta) = .ok m := by
  have hlabels := Dictionary.read_toJson o m.labels
  have hannotations := Dictionary.read_toJson o m.annotations
  have howners := Item.list_map OwnerReference.read OwnerReference.toJson o m.owners
    (fun r _ => OwnerReference.read_toJson o r)
  have hfinalizers := Item.list_map Item.text .text o m.finalizers (fun _ _ => rfl)
  have hgeneration := read_generation o h
  have hdeletion : (Source.optional Source.text (⟨o, ofOption .text m.deletionTimestamp⟩ : Item) :
      Item.Reader (Option String)) = .ok m.deletionTimestamp := by
    cases m.deletionTimestamp <;> rfl
  rw [canonical_toJson, ObjectMeta.read, Item.record_object]
  rw [Item.foldlM_readMember hannotations (by rfl) (by rfl)]
  rw [Item.foldlM_readMember_text (by rfl) (by rfl)]
  rw [Item.foldlM_readMember hdeletion (by rfl) (by rfl)]
  rw [Item.foldlM_readMember hfinalizers (by rfl) (by rfl)]
  rw [Item.foldlM_readMember hgeneration (by rfl) (by rfl)]
  rw [Item.foldlM_readMember hlabels (by rfl) (by rfl)]
  rw [Item.foldlM_readMember_text (by rfl) (by rfl)]
  rw [Item.foldlM_readMember_text (by rfl) (by rfl)]
  rw [Item.foldlM_readMember howners (by rfl) (by rfl)]
  rw [Item.foldlM_readMember_text (by rfl) (by rfl)]
  rw [Item.foldlM_readMember_text (by rfl) (by rfl)]
  rfl

end ObjectMeta

namespace WithOthers

variable {ρ : Type} {fields : List (Record.Field Item Item.Reader ρ)} {o : Origin} {p : Partial (WithOthers ρ)}
  {key : String} {ms : List (String × Json)}

def readMember (fields : List (Record.Field Item Item.Reader ρ)) (o : Origin) (p : Partial (WithOthers ρ))
    (m : String × Json) : Item.Reader (Partial (WithOthers ρ)) :=
  Partial.step keep (fields.map field) p m.1 ⟨o, m.2⟩

theorem read_object (name : String) (start : ρ) (ms : List (String × Json)) :
    (WithOthers.read name fields start (⟨o, .object ms⟩ : Item) : Item.Reader (WithOthers ρ)) =
      ms.foldlM (readMember fields o) (Partial.start ⟨start, []⟩) >>=
        fun p => p.finish (fields.map field) :=
  rfl

theorem find?_map_field (fields : List (Record.Field Item Item.Reader ρ)) (key : String) :
    (fields.map field).find? (·.key == key) = (fields.find? (·.key == key)).map field := by
  rw [List.find?_map]
  rfl

theorem foldlM_readMember_bind {α : Type} {presence : Presence} {j : Json} {read : Item → Item.Reader α}
    {set : α → ρ → ρ}
    (hfield : fields.find? (·.key == key) = some ⟨key, presence, fun node => set <$> read node⟩)
    (hseen : p.seen.contains key = false) :
    ((key, j) :: ms).foldlM (readMember fields o) p =
      read ⟨o, j⟩ >>= fun a => ms.foldlM (readMember fields o)
        ⟨key :: p.seen, { p.value with value := set a p.value.value }⟩ := by
  rw [List.foldlM_cons]
  simp only [readMember, Partial.step, find?_map_field, hfield, Option.map_some, hseen, field]
  cases read ⟨o, j⟩ <;> rfl

theorem foldlM_readMember {α : Type} {presence : Presence} {j : Json} {read : Item → Item.Reader α}
    {set : α → ρ → ρ} {a : α} (hread : read ⟨o, j⟩ = .ok a)
    (hfield : fields.find? (·.key == key) = some ⟨key, presence, fun node => set <$> read node⟩)
    (hseen : p.seen.contains key = false) :
    ((key, j) :: ms).foldlM (readMember fields o) p =
      ms.foldlM (readMember fields o)
        ⟨key :: p.seen, { p.value with value := set a p.value.value }⟩ := by
  rw [foldlM_readMember_bind hfield hseen, hread]
  rfl

theorem foldlM_readMember_text {presence : Presence} {s : String} {set : String → ρ → ρ}
    (hfield : fields.find? (·.key == key) =
      some ⟨key, presence, fun node => set <$> Item.text node⟩)
    (hseen : p.seen.contains key = false) :
    ((key, .text s) :: ms).foldlM (readMember fields o) p =
      ms.foldlM (readMember fields o)
        ⟨key :: p.seen, { p.value with value := set s p.value.value }⟩ :=
  foldlM_readMember rfl hfield hseen

theorem foldlM_readMember_others (os : List (String × Json))
    (h : ∀ m ∈ os, fields.find? (·.key == m.1) = none) :
    (os ++ ms).foldlM (readMember fields o) p =
      ms.foldlM (readMember fields o)
        ⟨p.seen, { p.value with others := p.value.others ++ os }⟩ := by
  induction os generalizing p with
  | nil => simp
  | cons m os ih =>
    have hstep : readMember fields o p m =
        .ok ⟨p.seen, { p.value with others := p.value.others ++ [m] }⟩ := by
      simp only [readMember, Partial.step, find?_map_field, h m List.mem_cons_self, Option.map_none]
      rfl
    have hos := ih (p := ⟨p.seen, { p.value with others := p.value.others ++ [m] }⟩)
      (fun m' hm' => h m' (List.mem_cons_of_mem m hm'))
    rw [List.cons_append, List.foldlM_cons, hstep]
    simp only [List.append_assoc, List.singleton_append] at hos
    exact hos

end WithOthers

namespace Kind

def SpecFits : (k : Kind) → k.Spec → Prop
  | .widget, (spec : WidgetSpec) =>
    -9223372036854775808 ≤ spec.size ∧ spec.size ≤ 9223372036854775807
  | _, _ => True

theorem canonical_specToJson (k : Kind) (spec : k.Spec) :
    (k.specToJson spec).canonical = k.specToJson spec := by
  cases k with
  | clientConfig =>
    simp only [specToJson, ClientConfigSpec.toJson, canonical, canonicalMembers,
      LocalReference.canonical_toJson]
    cbv
  | widget =>
    simp only [specToJson, WidgetSpec.toJson, canonical, canonicalMembers, canonicalItems_map]
    cbv
  | _ => rfl

theorem canonical_statusToJson (k : Kind) (status : k.Status) :
    (k.statusToJson status).canonical = k.statusToJson status := by
  cases k with
  | execCredential =>
    simp only [statusToJson, CredentialStatus.toJson, canonical, canonicalMembers]
    cbv
  | _ => rfl

theorem read_specToJson (o : Origin) {k : Kind} {spec : k.Spec} (h : k.SpecFits spec) :
    (k.readSpec (⟨o, k.specToJson spec⟩ : Item) : Item.Reader k.Spec) = .ok spec := by
  cases k with
  | widget =>
    obtain ⟨size, tags⟩ := spec
    have hsize := Item.integer_of_mem "i64" o h
    have htags := Item.list_map Item.text .text o tags (fun _ _ => rfl)
    show (WidgetSpec.read (⟨o, .object [("size", Json.integer size),
      ("tags", .array (tags.map .text))]⟩ : Item) : Item.Reader _) = .ok ⟨size, tags⟩
    rw [WidgetSpec.read, Item.record_object]
    rw [Item.foldlM_readMember hsize (by rfl) (by rfl)]
    rw [Item.foldlM_readMember htags (by rfl) (by rfl)]
    rfl
  | _ => rfl

theorem read_statusToJson (o : Origin) (k : Kind) (status : k.Status) :
    (k.readStatus (⟨o, k.statusToJson status⟩ : Item) : Item.Reader k.Status) = .ok status := by
  cases k <;> rfl

def keptHeader : (k : Kind) → k.Header →
    List (String × Json) × List (String × Json) × List (String × Json)
  | .serviceAccount, header => ([], ServiceAccountHeader.members header, [])
  | .secret, (header : SecretHeader) => ([("data", header.data.toJson)], [], [("type", .text header.type)])
  | _, _ => ([], [], [])

theorem canonicalMembers_headerMembers (k : Kind) (header : k.Header) :
    canonicalMembers (k.headerMembers header) = k.headerMembers header := by
  cases k with
  | serviceAccount =>
    obtain ⟨secrets⟩ := header
    cases secrets with
    | nil => rfl
    | cons r secrets =>
      have hmembers : serviceAccount.headerMembers (ServiceAccountHeader.mk (r :: secrets)) =
          [("secrets", .array ((r :: secrets).map LocalReference.toJson))] :=
        rfl
      simp only [hmembers, canonicalMembers, canonical, canonicalItems_map,
        LocalReference.canonical_toJson]
  | secret =>
    have hmembers : secret.headerMembers header =
        [("data", (SecretHeader.data header).toJson), ("type", .text (SecretHeader.type header))] :=
      rfl
    simp only [hmembers, canonicalMembers, canonical, Dictionary.canonical_toJson]
  | _ => rfl

theorem key_of_mem_keptHeader {k : Kind} (header : k.Header) (m : String × Json)
    (h : m ∈ (k.keptHeader header).1 ∨ m ∈ (k.keptHeader header).2.1 ∨
      m ∈ (k.keptHeader header).2.2) :
    m.1 = "data" ∨ m.1 = "secrets" ∨ m.1 = "type" := by
  cases k with
  | serviceAccount =>
    obtain ⟨secrets⟩ := header
    cases secrets <;> simp_all [keptHeader, ServiceAccountHeader.members]
  | secret =>
    simp only [keptHeader, List.mem_singleton, List.not_mem_nil, false_or] at h
    rcases h with h | h <;> simp [h]
  | _ => simp [keptHeader] at h

theorem read_keptHeader (k : Kind) (header : k.Header) :
    (k.headerOf ((k.keptHeader header).1 ++ (k.keptHeader header).2.1 ++ (k.keptHeader header).2.2) :
      Item.Reader k.Header) = .ok header := by
  cases k with
  | serviceAccount =>
    obtain ⟨secrets⟩ := header
    cases secrets with
    | nil => rfl
    | cons r secrets =>
      have hsecrets := Item.list_map LocalReference.read LocalReference.toJson .buffered (r :: secrets)
        (fun r _ => LocalReference.read_toJson .buffered r)
      have hread : (ServiceAccountHeader.read (Item.buffered
          (.object [("secrets", .array ((r :: secrets).map LocalReference.toJson))])) : Item.Reader _) =
          .ok ⟨r :: secrets⟩ := by
        rw [ServiceAccountHeader.read, Item.buffered, Item.record_object]
        rw [Item.foldlM_readMember hsecrets (by rfl) (by rfl)]
        rfl
      show Refusal.ofExcept (ServiceAccountHeader.read (Item.buffered
          (.object [("secrets", .array ((r :: secrets).map LocalReference.toJson))]))) = _
      rw [hread]
      rfl
  | secret =>
    have hdata := Dictionary.read_toJson .buffered (SecretHeader.data header)
    have hread : (SecretHeader.read (Item.buffered (.object
        [("data", (SecretHeader.data header).toJson), ("type", .text (SecretHeader.type header))])) :
        Item.Reader _) = .ok header := by
      rw [SecretHeader.read, Item.buffered, Item.record_object]
      rw [Item.foldlM_readMember hdata (by rfl) (by rfl)]
      rfl
    show Refusal.ofExcept (SecretHeader.read (Item.buffered (.object
        [("data", (SecretHeader.data header).toJson), ("type", .text (SecretHeader.type header))]))) = _
    rw [hread]
    rfl
  | _ => rfl

end Kind

namespace Object

def Fits {k : Kind} (o : Object k) : Prop :=
  o.metadata.Fits ∧ k.SpecFits o.spec

theorem canonicalMembers_append (ms ms' : List (String × Json)) :
    canonicalMembers (ms ++ ms') = canonicalMembers ms ++ canonicalMembers ms' := by
  induction ms with
  | nil => rfl
  | cons m ms ih =>
    rw [List.cons_append, canonicalMembers, canonicalMembers, ih, List.cons_append]

theorem canonical_toJson {k : Kind} (o : Object k) :
    o.toJson.canonical = .object (
      [("apiVersion", .text o.apiVersion)] ++ ((k.keptHeader o.header).1 ++
      ([("kind", .text o.kind), ("metadata", o.metadata.toJson.canonical)] ++
      ((k.keptHeader o.header).2.1 ++
      ([("spec", k.specToJson o.spec), ("status", k.statusToJson o.status)] ++
      (k.keptHeader o.header).2.2))))) := by
  simp only [toJson, canonical, canonicalMembers_append, canonicalMembers,
    Kind.canonical_specToJson, Kind.canonical_statusToJson, Kind.canonicalMembers_headerMembers]
  obtain ⟨_, _, metadata, spec, header, status⟩ := o
  generalize metadata.toJson.canonical = metadata
  generalize k.specToJson spec = spec
  generalize k.statusToJson status = status
  cases k with
  | serviceAccount =>
    obtain ⟨secrets⟩ := header
    cases secrets with
    | nil => cbv
    | cons r secrets =>
      show (Json.object (OrderedMap.ofList ([_, _, _, _] ++ [("secrets",
        .array ((r :: secrets).map LocalReference.toJson))] ++ [_])).entries) =
        .object ([_] ++ ([] ++ ([_, _] ++ ([("secrets",
          .array ((r :: secrets).map LocalReference.toJson))] ++ ([_, _] ++ [])))))
      generalize (r :: secrets).map LocalReference.toJson = secrets
      cbv
  | secret =>
    simp only [Kind.headerMembers, SecretHeader.members, Kind.keptHeader]
    generalize (SecretHeader.data header).toJson = data
    cbv
  | _ => cbv

theorem read_canonical_as {k : Kind} {o : Object k} (h : o.metadata.Fits) (k' : Kind) :
    (Object.read k' (Item.whole o.toJson.canonical) : Item.Reader (Object k')) = (do
      let spec ← k'.readSpec (⟨.whole, k.specToJson o.spec⟩ : Item)
      let status ← k'.readStatus (⟨.whole, k.statusToJson o.status⟩ : Item)
      let header ← k'.headerOf
        ((k.keptHeader o.header).1 ++ (k.keptHeader o.header).2.1 ++ (k.keptHeader o.header).2.2)
      pure ⟨o.apiVersion, o.kind, o.metadata, spec, header, status⟩) := by
  have hmetadata := ObjectMeta.read_canonical .whole h
  have hkeys := Kind.key_of_mem_keptHeader o.header
  rw [canonical_toJson, Item.whole, Object.read, WithOthers.read_object, List.singleton_append]
  rw [WithOthers.foldlM_readMember_text (by rfl) (by rfl)]
  rw [WithOthers.foldlM_readMember_others]
  . rw [List.cons_append, List.singleton_append]
    rw [WithOthers.foldlM_readMember_text (by rfl) (by rfl)]
    rw [WithOthers.foldlM_readMember hmetadata (by rfl) (by rfl)]
    rw [WithOthers.foldlM_readMember_others]
    . rw [List.cons_append, List.singleton_append]
      rw [WithOthers.foldlM_readMember_bind (by rfl) (by rfl), bind_assoc, bind_assoc]
      apply bind_congr
      intro spec
      rw [WithOthers.foldlM_readMember_bind (by rfl) (by rfl), bind_assoc]
      apply bind_congr
      intro status
      rw [← List.append_nil (k.keptHeader o.header).2.2, WithOthers.foldlM_readMember_others]
      . show (do
          let header ← k'.headerOf ([] ++ (k.keptHeader o.header).1 ++ (k.keptHeader o.header).2.1 ++
            (k.keptHeader o.header).2.2)
          pure ⟨o.apiVersion, o.kind, o.metadata, spec, header, status⟩ : Item.Reader (Object k')) = _
        rw [List.nil_append, List.append_nil]
      . intro m hm
        rcases hkeys m (.inr (.inr hm)) with hm | hm | hm <;> rw [hm] <;> rfl
    . intro m hm
      rcases hkeys m (.inr (.inl hm)) with hm | hm | hm <;> rw [hm] <;> rfl
  . intro m hm
    rcases hkeys m (.inl hm) with hm | hm | hm <;> rw [hm] <;> rfl

theorem read_canonical {k : Kind} {o : Object k} (h : o.Fits) :
    (Object.read k (Item.whole o.toJson.canonical) : Item.Reader (Object k)) = .ok o := by
  have hspec := Kind.read_specToJson .whole h.2
  have hstatus := Kind.read_statusToJson .whole k o.status
  rw [read_canonical_as h.1, hspec, hstatus, Kind.read_keptHeader]
  rfl

end Object

namespace Store

theorem asKind_stored {k : Kind} {o : Object k} (h : o.Fits) : asKind k (stored o) = .ok o := by
  rw [asKind, stored, Object.read_canonical h]

theorem metadata_of_asKind_stored {k k' : Kind} {o : Object k} {o' : Object k'}
    (h : o.metadata.Fits) (ho : asKind k' (stored o) = .ok o') : o'.metadata = o.metadata := by
  rw [asKind, stored, Object.read_canonical_as h] at ho
  split at ho
  . next hread =>
    obtain ⟨spec, -, hread⟩ := exists_of_bind_eq_ok hread
    obtain ⟨status, -, hread⟩ := exists_of_bind_eq_ok hread
    obtain ⟨header, -, hread⟩ := exists_of_bind_eq_ok hread
    cases hread
    cases ho
    rfl
  . cases ho

end Store

end ClusterRegistration
