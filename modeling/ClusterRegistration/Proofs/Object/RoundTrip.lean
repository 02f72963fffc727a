import ClusterRegistration.Proofs.Object.Text
import ClusterRegistration.Proofs.Object.Written

namespace ClusterRegistration

open Record Json

namespace Json

def extend (extra : List (String × Json)) : Json → Json
  | .object members => .object (members ++ extra)
  | j => j

namespace Item

variable {ρ : Type} {fields : List (Field Item Reader ρ)} {ms extra : List (String × Json)}

theorem find?_eq_none {key : String} (h : key ∉ fields.map (·.key)) :
    fields.find? (·.key == key) = none := by
  rw [List.find?_eq_none]
  intro field hfield hkey
  exact h (List.mem_map.mpr ⟨field, hfield, beq_iff_eq.mp hkey⟩)

theorem record_append (name : String) (start : ρ) (o : Origin)
    (h : ∀ m ∈ extra, m.1 ∉ fields.map (·.key)) :
    (Source.record name fields start (⟨o, .object (ms ++ extra)⟩ : Item) : Reader ρ) =
      Source.record name fields start (⟨o, .object ms⟩ : Item) := by
  have hextra : ∀ p, extra.foldlM (readMember fields o) p = .ok p := by
    induction extra with
    | nil => exact fun _ => rfl
    | cons m extra ih =>
      intro p
      have hstep : readMember fields o p m = .ok p := by
        simp only [readMember, Partial.step, find?_eq_none (h m List.mem_cons_self)]
        rfl
      rw [List.foldlM_cons, hstep]
      exact ih (fun m' hm' => h m' (List.mem_cons_of_mem m hm')) p
  rw [record_object, record_object, List.foldlM_append]
  simp only [hextra]
  rw [show (fun p : Partial ρ => (.ok p : Reader _)) = pure from rfl, bind_pure]

end Item

end Json

namespace WithOthers

variable {ρ : Type} {fields : List (Field Item Item.Reader ρ)} {ms extra : List (String × Json)}

theorem read_append (name : String) (start : ρ) (o : Origin)
    (h : ∀ m ∈ extra, m.1 ∉ fields.map (·.key)) :
    (WithOthers.read name fields start (⟨o, .object (ms ++ extra)⟩ : Item) : Item.Reader _) =
      (fun r => { r with others := r.others ++ extra }) <$>
        (WithOthers.read name fields start (⟨o, .object ms⟩ : Item) : Item.Reader _) := by
  rw [read_object, read_object, List.foldlM_append]
  cases ms.foldlM (readMember fields o) (Partial.start ⟨start, []⟩) with
  | error e => rfl
  | ok p =>
    have hextra : (extra ++ []).foldlM (readMember fields o) p =
        .ok ⟨p.seen, { p.value with others := p.value.others ++ extra }⟩ :=
      foldlM_readMember_others extra (fun m hm => Item.find?_eq_none (h m hm))
    rw [List.append_nil] at hextra
    show (extra.foldlM (readMember fields o) p >>= fun p => p.finish (fields.map field)) = _
    rw [hextra]
    show Partial.finish (fields.map field) ⟨p.seen, { p.value with others := p.value.others ++ extra }⟩ =
      _ <$> Partial.finish (fields.map field) p
    unfold Partial.finish
    dsimp only
    split
    . rfl
    . rfl

end WithOthers

namespace Kind

theorem headerOf_append (k : Kind) {others extra : List (String × Json)}
    (h : ∀ m ∈ extra, m.1 ∉ k.headerNames) :
    (k.headerOf (others ++ extra) : Item.Reader k.Header) = k.headerOf others := by
  unfold headerOf
  congr 1
  cases k with
  | serviceAccount | secret => exact Item.record_append _ _ _ h
  | execCredential | clientConfig | node | strictNode | widget =>
    exact Item.record_append _ _ _ (fun _ _ => List.not_mem_nil)

theorem keptHeader_append (k : Kind) (header : k.Header) :
    (k.keptHeader header).1 ++ (k.keptHeader header).2.1 ++ (k.keptHeader header).2.2 =
      k.headerMembers header := by
  cases k with
  | serviceAccount => exact List.append_nil _
  | secret | execCredential | clientConfig | node | strictNode | widget => rfl

theorem read_headerMembers (k : Kind) (header : k.Header) :
    (k.headerOf (k.headerMembers header) : Item.Reader k.Header) = .ok header := by
  rw [← keptHeader_append]
  exact read_keptHeader k header

end Kind

section Written

variable (o : Origin)

theorem InputMeta.read_toJson (m : InputMeta) :
    (InputMeta.read (⟨o, m.toJson⟩ : Item) : Item.Reader InputMeta) = .ok m := by
  have hlabels := Dictionary.read_toJson o m.labels
  have howners := Item.list_map OwnerReference.read OwnerReference.toJson o m.owners
    (fun r _ => OwnerReference.read_toJson o r)
  have hfinalizers := Item.list_map Item.text .text o m.finalizers (fun _ _ => rfl)
  have hannotations := Dictionary.read_toJson o m.annotations
  rw [toJson, InputMeta.read, Item.record_object]
  rw [Item.foldlM_readMember_text (by rfl) (by rfl)]
  rw [Item.foldlM_readMember hlabels (by rfl) (by rfl)]
  rw [Item.foldlM_readMember_text (by rfl) (by rfl)]
  rw [Item.foldlM_readMember howners (by rfl) (by rfl)]
  rw [Item.foldlM_readMember hfinalizers (by rfl) (by rfl)]
  rw [Item.foldlM_readMember hannotations (by rfl) (by rfl)]
  rfl

theorem ListMeta.read_toJson (m : ListMeta) :
    (ListMeta.read (⟨o, m.toJson⟩ : Item) : Item.Reader ListMeta) = .ok m := by
  obtain ⟨continuation, _⟩ := m
  cases continuation <;> rfl

theorem StatusDetails.read_toJson (d : StatusDetails) :
    (StatusDetails.read (⟨o, d.toJson⟩ : Item) : Item.Reader StatusDetails) = .ok d := by
  obtain ⟨_, group, _, _⟩ := d
  cases group <;> rfl

theorem optional_ofOption {α : Type} (read : Item → Item.Reader α) (write : α → Json) (a? : Option α)
    (h : ∀ a ∈ a?, read ⟨o, write a⟩ = .ok a) (hnull : ∀ a, write a ≠ .null) :
    Item.optional read ⟨o, Json.ofOption write a?⟩ = .ok a? := by
  cases a? with
  | none => rfl
  | some a =>
    unfold Item.optional Json.ofOption
    split
    . next heq => exact absurd heq (hnull a)
    . rw [h a rfl]
      rfl

theorem ApiStatus.read_toJson {s : ApiStatus} (h : s.Fits) :
    (ApiStatus.read (⟨o, s.toJson⟩ : Item) : Item.Reader ApiStatus) = .ok s := by
  have hcode := optional_ofOption o _ Json.integer s.code
    (fun code hcode => Item.integer_of_mem "u16" o (h code hcode)) (fun _ => Json.noConfusion)
  have hdetails := optional_ofOption o _ StatusDetails.toJson s.details
    (fun d _ => StatusDetails.read_toJson o d) (fun _ => Json.noConfusion)
  have hmessage := optional_ofOption o Item.text .text s.message
    (fun _ _ => rfl) (fun _ => Json.noConfusion)
  have hreason := optional_ofOption o Item.text .text s.reason
    (fun _ _ => rfl) (fun _ => Json.noConfusion)
  have hverdict : Item.choice "StatusEnum" [Verdict.success.text, Verdict.failure.text]
      ⟨o, .text s.verdict.text⟩ = .ok s.verdict.text := by
    cases s.verdict <;> rfl
  have hofText : Verdict.ofText s.verdict.text = s.verdict := by
    cases s.verdict <;> rfl
  rw [toJson, ApiStatus.read, Item.record_object]
  rw [Item.foldlM_readMember_text (by rfl) (by rfl)]
  rw [Item.foldlM_readMember hcode (by rfl) (by rfl)]
  rw [Item.foldlM_readMember hdetails (by rfl) (by rfl)]
  rw [Item.foldlM_readMember_text (by rfl) (by rfl)]
  rw [Item.foldlM_readMember hmessage (by rfl) (by rfl)]
  rw [Item.foldlM_readMember hreason (by rfl) (by rfl)]
  rw [Item.foldlM_readMember hverdict (by rfl) (by rfl)]
  rw [hofText]
  rfl

theorem ObjectMeta.read_toJson {m : ObjectMeta} (h : m.Fits) :
    (ObjectMeta.read (⟨o, m.toJson⟩ : Item) : Item.Reader ObjectMeta) = .ok m := by
  have hsame := same_canonical m.toJson (ObjectMeta.writable_toJson 0 h)
  have halike := (ObjectMeta.read_agrees Agreement.reordering).2 ⟨o, _⟩ ⟨o, m.toJson⟩ hsame
  exact halike.ok_eq (ObjectMeta.read_canonical o h)

theorem Object.read_toJson {k : Kind} {x : Object k} (h : x.Fits) :
    (Object.read k (⟨o, x.toJson⟩ : Item) : Item.Reader (Object k)) = .ok x := by
  have hsame := same_canonical x.toJson (Object.writable_toJson 0 h)
  have halike := (Object.read_agrees Agreement.reordering k).2 (Item.whole _) ⟨o, x.toJson⟩ hsame
  exact halike.ok_eq (Object.read_canonical h)

theorem ObjectInput.read_toJson {k : Kind} {x : ObjectInput k} (h : k.SpecFits x.spec) :
    (ObjectInput.read k (⟨o, x.toJson⟩ : Item) : Item.Reader (ObjectInput k)) = .ok x := by
  have hmetadata := InputMeta.read_toJson o x.metadata
  have hspec := Kind.read_specToJson o h
  have hnames : ∀ m ∈ k.headerMembers x.header, m.1 ∉ ["apiVersion", "kind", "metadata", "spec"] := by
    have hnodup : (ObjectInput.names k).Nodup := by
      cases k <;> decide
    intro m hm hmem
    exact (List.nodup_append.mp hnodup).2.2 _ hmem _ (Kind.mem_headerNames x.header hm) rfl
  rw [toJson, ObjectInput.read, WithOthers.read_append _ _ _ hnames, WithOthers.read_object]
  rw [WithOthers.foldlM_readMember_text (by rfl) (by rfl)]
  rw [WithOthers.foldlM_readMember_text (by rfl) (by rfl)]
  rw [WithOthers.foldlM_readMember hmetadata (by rfl) (by rfl)]
  rw [WithOthers.foldlM_readMember hspec (by rfl) (by rfl)]
  show (do
    let header ← k.headerOf ([] ++ k.headerMembers x.header)
    pure { x with header := header } : Item.Reader (ObjectInput k)) = .ok x
  rw [List.nil_append, k.read_headerMembers]
  rfl

theorem ObjectList.read_toJson {k : Kind} {l : ObjectList k} (h : l.Fits) :
    (ObjectList.read k (⟨o, l.toJson⟩ : Item) : Item.Reader (ObjectList k)) = .ok l := by
  have hmetadata := ListMeta.read_toJson o l.metadata
  have hitems := Item.list_map (Object.read k) Object.toJson o l.items
    (fun x hx => Object.read_toJson o (h x hx))
  rw [toJson, ObjectList.read, Item.record_object]
  rw [Item.foldlM_readMember_text (by rfl) (by rfl)]
  rw [Item.foldlM_readMember_text (by rfl) (by rfl)]
  rw [Item.foldlM_readMember hmetadata (by rfl) (by rfl)]
  rw [Item.foldlM_readMember hitems (by rfl) (by rfl)]
  rfl

end Written

/--
What is written as `j`, with members of some names, is `x`: the text of `j` holds it, and `x` is read from
everything that differs from it in the order of members, or by members of other names.
-/
structure ReadsBack {α : Type} (names : List String) (j : Json)
    (read : {ν : Type} → {m : Type → Type} → [Monad m] → [ValueSource ν m] → ν → m α) (x : α) : Prop where
  text : parse (Text.Utf8.encode j.render) = .ok j
  canonical : Same j.canonical j
  value : ∀ extra j', (∀ m ∈ extra, m.1 ∉ names) → Same j' (j.extend extra) →
    ∀ o, read (⟨o, j'⟩ : Item) = (.ok x : Item.Reader α)
  body : ∀ extra j' body, (∀ m ∈ extra, m.1 ∉ names) → Same j' (j.extend extra) →
    parse body = .ok j' → Json.Reader.run (read ()) body = .ok x

theorem ReadsBack.of_extend {α : Type} {names : List String} {j : Json}
    {read : {ν : Type} → {m : Type → Type} → [Monad m] → [ValueSource ν m] → ν → m α} {x : α}
    (hagrees : ∀ {ν : Type} {m : Type → Type} [Monad m] [ValueSource ν m] (A : Agreement ν m),
      A.Agree read read)
    (hj : j.Writable maxNesting)
    (h : ∀ extra, (∀ m ∈ extra, m.1 ∉ names) →
      ∀ o, read (⟨o, j.extend extra⟩ : Item) = (.ok x : Item.Reader α)) :
    ReadsBack names j read x := by
  have hvalue : ∀ extra j', (∀ m ∈ extra, m.1 ∉ names) → Same j' (j.extend extra) →
      ∀ o, read (⟨o, j'⟩ : Item) = (.ok x : Item.Reader α) := by
    intro extra j' hextra hsame o
    exact ((hagrees Agreement.reordering).2 ⟨o, j'⟩ ⟨o, _⟩ hsame).eq_ok (h extra hextra o)
  refine ⟨parse_render hj, same_canonical j hj, hvalue, ?_⟩
  intro extra j' body hextra hsame hbody
  exact (run_alike (hagrees Agreement.ofText) .whole hbody).eq_ok (hvalue extra j' hextra hsame .whole)

section Extended

variable {k : Kind} {ms extra : List (String × Json)} (o : Origin)

theorem Object.read_append (h : ∀ m ∈ extra, m.1 ∉ Object.names k) :
    (Object.read k (⟨o, .object (ms ++ extra)⟩ : Item) : Item.Reader (Object k)) =
      Object.read k (⟨o, .object ms⟩ : Item) := by
  have hown : ∀ m ∈ extra, m.1 ∉ ["apiVersion", "kind", "metadata", "spec", "status"] := by
    intro m hm hmem
    refine h m hm ?_
    simp only [names, List.mem_append, List.mem_cons, List.not_mem_nil, or_false] at hmem ⊢
    tauto
  have hheader : ∀ m ∈ extra, m.1 ∉ k.headerNames := by
    intro m hm hmem
    exact h m hm (List.mem_append_left _ (List.mem_append_right _ hmem))
  unfold Object.read
  rw [WithOthers.read_append _ _ _ hown, bind_map_left]
  simp only [k.headerOf_append hheader]

theorem ObjectInput.read_append (h : ∀ m ∈ extra, m.1 ∉ ObjectInput.names k) :
    (ObjectInput.read k (⟨o, .object (ms ++ extra)⟩ : Item) : Item.Reader (ObjectInput k)) =
      ObjectInput.read k (⟨o, .object ms⟩ : Item) := by
  have hown : ∀ m ∈ extra, m.1 ∉ ["apiVersion", "kind", "metadata", "spec"] :=
    fun m hm hmem => h m hm (List.mem_append_left _ hmem)
  have hheader : ∀ m ∈ extra, m.1 ∉ k.headerNames :=
    fun m hm hmem => h m hm (List.mem_append_right _ hmem)
  unfold ObjectInput.read
  rw [WithOthers.read_append _ _ _ hown, bind_map_left]
  simp only [k.headerOf_append hheader]

end Extended

/--
Objects of every kind, those to be created, lists of them, metadata and statuses are read as they were
written.
-/
theorem readsBack (k : Kind) :
    (∀ x : Object k, x.Fits → ReadsBack (Object.names k) x.toJson (Object.read k) x) ∧
    (∀ x : ObjectInput k, k.SpecFits x.spec →
      ReadsBack (ObjectInput.names k) x.toJson (ObjectInput.read k) x) ∧
    (∀ x : ObjectList k, x.Fits → ReadsBack ObjectList.names x.toJson (ObjectList.read k) x) ∧
    (∀ x : ObjectMeta, x.Fits → ReadsBack ObjectMeta.names x.toJson ObjectMeta.read x) ∧
    (∀ x : ApiStatus, x.Fits → ReadsBack ApiStatus.names x.toJson ApiStatus.read x) := by
  refine ⟨fun x h => ?_, fun x h => ?_, fun x h => ?_, fun x h => ?_, fun x h => ?_⟩
  . apply ReadsBack.of_extend (fun A => Object.read_agrees A k) (Object.writable_toJson 123 h)
    exact fun extra hextra o => (Object.read_append o hextra).trans (Object.read_toJson o h)
  . apply ReadsBack.of_extend (fun A => ObjectInput.read_agrees A k) (ObjectInput.writable_toJson 123 h)
    exact fun extra hextra o => (ObjectInput.read_append o hextra).trans (ObjectInput.read_toJson o h)
  . apply ReadsBack.of_extend (fun A => ObjectList.read_agrees A k) (ObjectList.writable_toJson 121 h)
    exact fun extra hextra o => (Item.record_append _ _ o hextra).trans (ObjectList.read_toJson o h)
  . apply ReadsBack.of_extend (fun A => ObjectMeta.read_agrees A) (ObjectMeta.writable_toJson 124 h)
    exact fun extra hextra o => (Item.record_append _ _ o hextra).trans (ObjectMeta.read_toJson o h)
  . apply ReadsBack.of_extend (fun A => ApiStatus.read_agrees A) (ApiStatus.writable_toJson 125 h)
    exact fun extra hextra o => (Item.record_append _ _ o hextra).trans (ApiStatus.read_toJson o h)

section Sample

def sampleSecret : Object .secret where
  apiVersion := "v1"
  kind := "Secret"
  metadata := { (default : ObjectMeta) with
    name := "token"
    ns := "kube-system"
    generation := some (-1)
    owners := [⟨"v1", true, none, "ServiceAccount", "\x07", "7"⟩] }
  spec := ()
  header := (⟨OrderedMap.ofList [("token", "dG9rZW4="), ("ca.crt", "")], "Opaque"⟩ : SecretHeader)
  status := ()

theorem readsBack_of_secret :
    let extended := sampleSecret.toJson.extend [("immutable", .flag true)]
    sampleSecret.Fits ∧ "immutable" ∉ Object.names .secret ∧
      (Object.read .secret (Item.whole extended) : Item.Reader _) = .ok sampleSecret ∧
      Json.Reader.run (Object.read .secret ()) (Text.Utf8.encode sampleSecret.toJson.render) =
        .ok sampleSecret := by
  have hfits : sampleSecret.Fits := by
    refine ⟨?_, trivial⟩
    rintro g ⟨⟩
    decide
  have hback := (readsBack .secret).1 sampleSecret hfits
  refine ⟨hfits, by decide, ?_, ?_⟩
  . exact hback.value [("immutable", .flag true)] _ (by decide) (.refl _) .whole
  . exact hback.body [] _ _ (by simp) (.refl _) hback.text

end Sample

end ClusterRegistration
