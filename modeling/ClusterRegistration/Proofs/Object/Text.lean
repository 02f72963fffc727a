import ClusterRegistration.Proofs.Json.Loop
import ClusterRegistration.Proofs.Json.Skip
import ClusterRegistration.Proofs.Object.Reading

namespace ClusterRegistration.Json.Reader

open Record

variable {α β ρ : Type} {c c₁ c' : Cursor} {j : Json} {b : UInt8} {n : Nat}

def Agrees (read : Unit → Reader α) (read' : Item → Item.Reader α) : Prop :=
  ∀ n c j c' o, valueWith n c = .ok (j, c') → Yields c' (read () c) (read' ⟨o, j⟩)

theorem Yields.unexpected (b : UInt8) (expected : String) (c : Cursor) (m : Mismatch) :
    Yields c' ((Reader.unexpected b expected : Reader α) c) (.error m) := by
  cases hhead : head b c with
  | error e => exact .of_error (bind_of_error hhead) m
  | ok p =>
    apply Yields.of_error
    exact bind_of_ok hhead

theorem text_of_first (h : peek? c = .ok (some b, c₁)) :
    text c = (if b == 0x22 then lexeme scanText c₁.next else unexpected b "a string" c₁) := by
  unfold text
  rw [bind_of_ok (start_of_first h)]
  split
  . rfl
  . rfl

theorem text_agrees : Agrees (fun _ => text) Item.text := by
  intro n c j c' o h
  cases n with
  | zero => cases h
  | succ n =>
    dsimp only
    cases stands_of_valueWith h with
    | null hfirst h | yes hfirst h | no hfirst h | array hfirst h | object hfirst h =>
      rw [text_of_first hfirst]
      exact .unexpected _ _ _ _
    | number hfirst hb h =>
      rw [text_of_first hfirst, startsNumeral_ne hb rfl]
      exact .unexpected _ _ _ _
    | text hfirst h =>
      rw [text_of_first hfirst]
      exact .of_ok h

theorem flag_of_first (h : peek? c = .ok (some b, c₁)) :
    flag c =
      if b == 0x74 then (word "rue" >>= fun _ => pure true) c₁.next
      else if b == 0x66 then (word "alse" >>= fun _ => pure false) c₁.next
      else unexpected b "a boolean" c₁ := by
  unfold flag
  rw [bind_of_ok (start_of_first h)]
  split
  . rfl
  . split
    . rfl
    . rfl

theorem flag_agrees : Agrees (fun _ => flag) Item.flag := by
  intro n c j c' o h
  cases n with
  | zero => cases h
  | succ n =>
    dsimp only
    cases stands_of_valueWith h with
    | null hfirst h | text hfirst h | array hfirst h | object hfirst h =>
      rw [flag_of_first hfirst]
      exact .unexpected _ _ _ _
    | number hfirst hb h =>
      rw [flag_of_first hfirst, startsNumeral_ne hb rfl, startsNumeral_ne hb rfl]
      exact .unexpected _ _ _ _
    | yes hfirst h | no hfirst h =>
      rw [flag_of_first hfirst]
      exact .of_ok (bind_of_ok h)

theorem integer_of_first (low high : Int) (type : String) (h : peek? c = .ok (some b, c₁)) :
    integer low high type c =
      if startsNumeral b then
        (numeral b >>= fun x => Refusal.ofExcept (integerOf low high type x)) c₁
      else unexpected b type c₁ := by
  unfold integer
  rw [bind_of_ok (start_of_first h)]
  split
  . rfl
  . rfl

theorem ofExcept_yields (x : Except Mismatch α) :
    Yields c ((Refusal.ofExcept x : Reader α) c) x := by
  cases x with
  | ok a => exact .ok rfl
  | error m => exact .error _ _

theorem integer_agrees (low high : Int) (type : String) :
    Agrees (fun _ => integer low high type) (Item.integer low high type) := by
  intro n c j c' o h
  cases n with
  | zero => cases h
  | succ n =>
    dsimp only
    cases stands_of_valueWith h with
    | null hfirst h | yes hfirst h | no hfirst h | text hfirst h | array hfirst h | object hfirst h =>
      rw [integer_of_first low high type hfirst]
      exact .unexpected _ _ _ _
    | number hfirst hb h =>
      rw [integer_of_first low high type hfirst, if_pos hb, bind_of_ok h]
      exact ofExcept_yields _

theorem optional_of_first (read : Reader α) (h : peek? c = .ok (some b, c₁)) :
    optional read c =
      if b == 0x6E then (word "ull" >>= fun _ => pure none) c₁.next else (some <$> read) c₁ := by
  unfold optional
  rw [bind_of_ok h]
  by_cases hb : b = 0x6E
  . subst hb
    rfl
  . rw [if_neg (by simp [hb])]
    simp [hb]

theorem optional_agrees {read : Unit → Reader α} {read' : Item → Item.Reader α}
    (hread : Agrees read read') :
    Agrees (fun _ => optional (read ())) (Item.optional read') := by
  intro n c j c' o h
  cases n with
  | zero => cases h
  | succ n =>
    dsimp only
    have hsome : ∀ {b c₁}, peek? c = .ok (some b, c₁) →
        Yields c' ((some <$> read ()) c₁) (some <$> read' ⟨o, j⟩) := by
      intro b c₁ hfirst
      rw [← valueWith_of_first _ hfirst] at h
      exact (hread _ _ _ _ o h).map some
    cases stands_of_valueWith h with
    | null hfirst h =>
      rw [optional_of_first _ hfirst]
      exact .of_ok (bind_of_ok h)
    | yes hfirst h | no hfirst h | text hfirst h | array hfirst h | object hfirst h =>
      rw [optional_of_first _ hfirst]
      exact hsome hfirst
    | number hfirst hb h =>
      rw [optional_of_first _ hfirst, startsNumeral_ne hb rfl]
      exact hsome hfirst

theorem list_of_first (read : Reader α) (h : peek? c = .ok (some b, c₁)) :
    list read c =
      if b == 0x5B then
        (List.reverse <$> listWith (fun as => (· :: as) <$> read) []) c₁
      else unexpected b "a sequence" c₁ := by
  unfold list
  rw [bind_of_ok (start_of_first h)]
  simp only [map_eq_pure_bind]
  split
  . rfl
  . rfl

theorem foldlM_read {read' : Item → Item.Reader α} (o : Origin) (js : List Json) (as : List α) :
    List.reverse <$> js.foldlM (fun as j => (· :: as) <$> read' ⟨o, j⟩) as =
      (as.reverse ++ ·) <$> js.mapM (fun j => read' ⟨o, j⟩) := by
  induction js generalizing as with
  | nil =>
    show Except.ok as.reverse = Except.ok (as.reverse ++ [])
    rw [List.append_nil]
  | cons j js ih =>
    rw [List.foldlM_cons, List.mapM_cons]
    cases read' ⟨o, j⟩ with
    | error e => rfl
    | ok a =>
      show List.reverse <$> js.foldlM _ (a :: as) =
        (as.reverse ++ ·) <$> (js.mapM (fun j => read' ⟨o, j⟩) >>= fun as' => pure (a :: as'))
      rw [ih]
      cases js.mapM (fun j => read' ⟨o, j⟩) with
      | error e => rfl
      | ok as' =>
        show Except.ok ((a :: as).reverse ++ as') = Except.ok (as.reverse ++ a :: as')
        rw [List.reverse_cons, List.append_assoc, List.singleton_append]

theorem list_agrees {read : Unit → Reader α} {read' : Item → Item.Reader α}
    (hread : Agrees read read') : Agrees (fun _ => list (read ())) (Item.list read') := by
  intro n c j c' o h
  cases n with
  | zero => cases h
  | succ n =>
    dsimp only
    cases stands_of_valueWith h with
    | null hfirst h | yes hfirst h | no hfirst h | text hfirst h | object hfirst h =>
      rw [list_of_first _ hfirst]
      exact .unexpected _ _ _ _
    | number hfirst hb h =>
      rw [list_of_first _ hfirst, startsNumeral_ne hb rfl]
      exact .unexpected _ _ _ _
    | @array c₁ _ js hfirst h =>
      rw [list_of_first _ hfirst]
      have hitems := listWith_follow hfirst (f := fun as => (· :: as) <$> read ())
        (g := fun as j => (· :: as) <$> read' ⟨o, j⟩)
        (fun as c j c' _ hvalue => (hread _ _ _ _ o hvalue).map _) [] h
      have hlist := hitems.map List.reverse
      rw [foldlM_read, List.reverse_nil] at hlist
      simp only [List.nil_append, id_map'] at hlist
      exact hlist

theorem object_of_first {σ : Type} (expected : String) (step : σ → String → Reader σ) (s : σ)
    (h : peek? c = .ok (some b, c₁)) :
    object expected step s c =
      if b == 0x7B then objectWith step s c₁ else unexpected b expected c₁ := by
  unfold object
  rw [bind_of_ok (start_of_first h)]
  split
  . rfl
  . rfl

theorem object_agrees {σ : Type} (expected : String) {step : σ → String → Reader σ}
    {step' : σ → String → Item → Item.Reader σ}
    (hstep : ∀ s key, Agrees (fun _ => step s key) (step' s key)) (s : σ) :
    Agrees (fun _ => object expected step s) (Item.object expected step' s) := by
  intro n c j c' o h
  cases n with
  | zero => cases h
  | succ n =>
    dsimp only
    cases stands_of_valueWith h with
    | null hfirst h | yes hfirst h | no hfirst h | text hfirst h | array hfirst h =>
      rw [object_of_first _ _ _ hfirst]
      exact .unexpected _ _ _ _
    | number hfirst hb h =>
      rw [object_of_first _ _ _ hfirst, startsNumeral_ne hb rfl]
      exact .unexpected _ _ _ _
    | object hfirst h =>
      rw [object_of_first _ _ _ hfirst]
      exact objectWith_follow hfirst (g := fun s key j => step' s key ⟨o, j⟩)
        (fun s key c j c' _ hvalue => hstep s key _ _ _ _ o hvalue) s h

theorem Agrees.map {read : Unit → Reader α} {read' : Item → Item.Reader α} (f : α → β)
    (h : Agrees read read') : Agrees (fun node => f <$> read node) (fun item => f <$> read' item) :=
  fun n c j c' o hvalue => (h n c j c' o hvalue).map f

theorem dictionary_agrees : Agrees Dictionary.read Dictionary.read := by
  have hstep : ∀ (es : List (String × String)) (key : String),
      Agrees (fun _ => (do return es ++ [(key, ← text)] : Reader _))
        (fun item => (do return es ++ [(key, ← Item.text item)] : Item.Reader _)) := by
    intro es key
    have htext := text_agrees.map (fun s => es ++ [(key, s)])
    simp only [map_eq_pure_bind] at htext
    exact htext
  exact (object_agrees "a map" hstep []).map OrderedMap.ofList

section Records

variable {fs : List (Field Unit Reader ρ)} {fs' : List (Field Item Item.Reader ρ)}
  {other : String → Unit → Reader (ρ → ρ)} {other' : String → Item → Item.Reader (ρ → ρ)}

theorem find?_related {R : (Unit → Reader (ρ → ρ)) → (Item → Item.Reader (ρ → ρ)) → Prop}
    (h : List.Forall₂ (Field.Related R) fs fs') (q : String → Presence → Bool) :
    (fs.find? (fun f => q f.key f.presence) = none ∧
      fs'.find? (fun f => q f.key f.presence) = none) ∨
    ∃ f f', fs.find? (fun f => q f.key f.presence) = some f ∧
      fs'.find? (fun f => q f.key f.presence) = some f' ∧ Field.Related R f f' := by
  induction h with
  | nil => exact .inl ⟨rfl, rfl⟩
  | @cons f f' fs fs' hf h ih =>
    rw [List.find?_cons, List.find?_cons, hf.key, hf.presence]
    cases q f'.key f'.presence with
    | true => exact .inr ⟨f, f', rfl, rfl, hf⟩
    | false => exact ih

theorem step_agrees (hfs : List.Forall₂ (Field.Related Agrees) fs fs')
    (hother : ∀ key, Agrees (other key) (other' key)) (p : Partial ρ) (key : String) :
    Agrees (fun _ => p.step other fs key ()) (p.step other' fs' key) := by
  intro n c j c' o h
  unfold Partial.step
  rcases find?_related hfs (fun k _ => k == key) with ⟨hf, hf'⟩ | ⟨f, f', hf, hf', hread⟩
  . rw [hf, hf']
    exact (hother key n c j c' o h).bind (fun _ => .ok rfl)
  . rw [hf, hf']
    dsimp only
    split
    . exact .error _ _
    . exact (hread.read n c j c' o h).bind (fun _ => .ok rfl)

theorem finish_agrees (hfs : List.Forall₂ (Field.Related Agrees) fs fs') (p : Partial ρ) :
    Yields c ((p.finish fs : Reader ρ) c) (p.finish fs') := by
  unfold Partial.finish
  rcases find?_related hfs (fun k presence => presence = .required && !p.seen.contains k) with
    ⟨hf, hf'⟩ | ⟨f, f', hf, hf', hread⟩
  . rw [hf, hf']
    exact .ok rfl
  . rw [hf, hf']
    exact .error _ _

theorem members_agree (name : String) (hfs : List.Forall₂ (Field.Related Agrees) fs fs')
    (hother : ∀ key, Agrees (other key) (other' key)) (start : ρ) :
    Agrees
      (fun _ => object (expectedRecord name) (fun p key => p.step other fs key ())
        (Partial.start start) >>= fun p => p.finish fs)
      (fun item => Item.object (expectedRecord name) (Partial.step other' fs')
        (Partial.start start) item >>= fun p => p.finish fs') :=
  fun n c j c' o h =>
    (object_agrees _ (fun p key => step_agrees hfs hother p key) _ n c j c' o h).bind
      (fun p => finish_agrees hfs p)

theorem leaveList_eq_ok (h : peek? c = .ok (some 0x5D, c₁)) : leaveList c = .ok ((), c₁.next) := by
  unfold leaveList
  rw [bind_of_ok h]
  rfl

theorem leaveList_eq_error (h : peek? c = .ok (some b, c₁)) (hb : b ≠ 0x5D) :
    ∃ e, leaveList c = .error e := by
  unfold leaveList
  rw [bind_of_ok h]
  dsimp only
  rw [if_neg (by simp [hb])]
  split
  . rw [bind_of_ok (advance_eq _), bind_of_ok (peek?_eq _)]
    cases c₁.next.skipBlanks.rest.head? with
    | none => exact ⟨_, rfl⟩
    | some b' =>
      by_cases hb' : b' = 0x5D
      . subst hb'
        exact ⟨_, rfl⟩
      . refine ⟨.malformed .trailingCharacters, ?_⟩
        simp [hb', fail, throw, throwThe, MonadExceptOf.throw, StateT.lift]
  . exact ⟨_, rfl⟩

def leaveListAt (depth : Nat) (r : ρ) : Reader ρ := fun c =>
  (leaveList >>= fun _ => pure r) (c.leave depth)

theorem leaveListAt_of_end (depth : Nat) (r : ρ) (h : peek? c = .ok (some 0x5D, c₁)) :
    leaveListAt depth r c = .ok (r, c₁.next.leave depth) := by
  unfold leaveListAt
  rw [bind_of_ok (leaveList_eq_ok (peek?_leave h depth))]
  rfl

theorem leaveListAt_of_more {first : Bool} (depth : Nat) (r : ρ)
    (h : moreItems first c = .ok (true, c₁)) : ∃ e, leaveListAt depth r c = .error e := by
  have hfirst : ∃ b c₂, b ≠ 0x5D ∧ peek? c = .ok (some b, c₂) := by
    rcases moreItems_eq_ok h with ⟨hmore, -⟩ | ⟨-, -, b, hb, hpeek⟩ | ⟨-, -, c₂, b, -, hpeek, -⟩
    . cases hmore
    . exact ⟨b, c₁, hb, hpeek⟩
    . exact ⟨0x2C, c₂, by decide, hpeek⟩
  obtain ⟨b, c₂, hb, hpeek⟩ := hfirst
  obtain ⟨e, he⟩ := leaveList_eq_error (peek?_leave hpeek depth) hb
  exact ⟨e, bind_of_error he⟩

theorem fieldsInOrder_follow (name : String) (all : List (Field Item Item.Reader ρ)) (o : Origin)
    (total depth : Nat) (hfs : List.Forall₂ (Field.Related Agrees) fs fs') {fuel : Nat} (i : Nat)
    {js js₀ : List Json} (r : ρ)
    (h : items (anotherItem n) fuel (i == 0) js₀ c = .ok (js.reverse ++ js₀, c')) :
    Yields (c'.next.leave depth)
      ((fieldsInOrder name all.length i fs r >>= leaveListAt depth) c)
      (Item.fieldsInOrder name all o total i fs' js r) := by
  -- On the fields. If the items end first, the other fields need defaults; if they do not, they are surplus.
  induction hfs generalizing c fuel i js js₀ r with
  | nil =>
    obtain ⟨_, more, c₁, rfl, hmore, h⟩ := items_eq_ok h
    show Yields _ (leaveListAt depth r c) _
    rcases h with ⟨rfl, hjs, rfl⟩ | ⟨rfl, j, c₂, hvalue, h⟩
    . have hnil : js = [] := by simpa using hjs
      subst hnil
      exact .of_ok (leaveListAt_of_end depth r (peek?_of_noItems hmore))
    . obtain ⟨e, he⟩ := leaveListAt_of_more depth r hmore
      obtain ⟨js', rfl, -⟩ := exists_cons_of_items h
      rw [he]
      unfold Item.fieldsInOrder Item.surplus
      cases o <;> exact .error _ _
  | @cons f f' fs fs' hf hfs ih =>
    obtain ⟨_, more, c₁, rfl, hmore, h⟩ := items_eq_ok h
    unfold fieldsInOrder
    rw [bind_assoc, bind_of_ok hmore]
    rcases h with ⟨rfl, hjs, rfl⟩ | ⟨rfl, j, c₂, hvalue, h⟩
    . have hnil : js = [] := by simpa using hjs
      subst hnil
      have hend : peek? c' = .ok (some 0x5D, c') := by
        exact peek?_of_first (peek?_of_noItems hmore)
      unfold Item.fieldsInOrder
      simp only [Bool.false_eq_true, if_false, hf.presence]
      split
      . exact ih (i + 1) r (items_of_end _ ([].reverse ++ []) hend)
      . exact .error _ _
    . obtain ⟨js', rfl, hjs⟩ := exists_cons_of_items h
      rw [hjs] at h
      rw [if_pos rfl, bind_assoc]
      exact (hf.read n c₁ j c₂ o hvalue).bind (fun set => ih (i + 1) (set r) h)

theorem record_of_first (name : String) (start : ρ) (h : peek? c = .ok (some b, c₁)) :
    record name fs start c =
      if b == 0x5B then
        (nested (advance >>= fun _ => fieldsInOrder name fs.length 0 fs start) >>= fun r =>
          leaveList >>= fun _ => pure r) c₁
      else
        (object (expectedRecord name)
          (fun p key => p.step (fun _ _ => skip >>= fun _ => pure id) fs key ())
          (Partial.start start) >>= fun p => p.finish fs) c₁ := by
  unfold record
  rw [bind_of_ok (start_of_first h)]
  split
  . rfl
  . rfl

theorem record_of_array (name : String) (hfs : List.Forall₂ (Field.Related Agrees) fs fs') (start : ρ)
    {js : List Json} (hfirst : peek? c = .ok (some 0x5B, c₁))
    (h : listWith (anotherItem n) [] c₁ = .ok (js.reverse, c')) (o : Origin) :
    Yields c' (record name fs start c)
      (Item.fieldsInOrder name fs' o js.length 0 fs' js start) := by
  obtain ⟨hdepth, fuel, c₂, -, hitems, rfl⟩ := listWith_eq_ok h
  rw [← List.append_nil js.reverse] at hitems
  have hfields := fieldsInOrder_follow name fs' o js.length c₁.depth hfs 0 start hitems
  rw [← hfs.length_eq] at hfields
  rw [record_of_first name start hfirst, if_pos (beq_self_eq_true _), nested_bind hdepth, bind_assoc,
    bind_of_ok (advance_eq _)]
  exact hfields

theorem record_agrees (name : String) (hfs : List.Forall₂ (Field.Related Agrees) fs fs') (start : ρ) :
    Agrees (fun _ => record name fs start) (Item.record name fs' start) := by
  have hother (_ : String) : Agrees (fun _ => (skip >>= fun _ => pure id : Reader (ρ → ρ)))
      (fun _ => pure id) :=
    fun n c j c' o h => .of_ok (bind_of_ok (skip_of_valueWith h))
  have hmembers := members_agree name hfs hother start
  intro n c j c' o h
  cases n with
  | zero => cases h
  | succ n =>
    dsimp only
    have hread : ∀ {b c₁}, peek? c = .ok (some b, c₁) → _ := fun {b c₁} hfirst =>
      hmembers (n + 1) c₁ j c' o (by rw [valueWith_of_first _ hfirst]; exact h)
    cases stands_of_valueWith h with
    | null hfirst h | yes hfirst h | no hfirst h | text hfirst h | object hfirst h =>
      rw [record_of_first name start hfirst]
      exact hread hfirst
    | number hfirst hb h =>
      rw [record_of_first name start hfirst, startsNumeral_ne hb rfl]
      exact hread hfirst
    | array hfirst h => exact record_of_array name hfs start hfirst h o

end Records

section Choices

variable (names : List String)

def noContent (s : String) : Reader String := do
  colon
  let b ← start
  if b == 0x6E then
    advance
    word "ull"
  else
    unexpected b "unit"
  pure s

def variant : Reader String := do
  let b ← start
  let s ←
    if b == 0x22 then Refusal.ofExcept (chosen names (← text))
    else unexpected b "variant identifier"
  noContent s

def closeVariant (s : String) : Reader String := do
  match ← peek? with
  | none => fail .eofInObject
  | some 0x7D =>
    advance
    pure s
  | some _ => fail .expectedValue

theorem choice_of_first (h : peek? c = .ok (some b, c₁)) :
    choice names c =
      if b == 0x22 then (text >>= fun s => Refusal.ofExcept (chosen names s)) c₁
      else if b == 0x7B then
        (nested (advance >>= fun _ => variant names) >>= closeVariant) c₁
      else fail .expectedValue c₁ := by
  unfold choice
  rw [bind_of_ok (start_of_first h)]
  split
  . rfl
  . split
    . rfl
    . rfl

theorem noContent_of_first (s : String) {c₂ : Cursor} (hcolon : colon c = .ok ((), c₁))
    (h : peek? c₁ = .ok (some b, c₂)) :
    noContent s c =
      if b == 0x6E then (word "ull" >>= fun _ => pure s) c₂.next
      else ((unexpected b "unit" : Reader Unit) >>= fun _ => pure s) c₂ := by
  unfold noContent
  rw [bind_of_ok hcolon, bind_of_ok (start_of_first h)]
  split
  . rfl
  . rfl

theorem noContent_follows (s : String) (o : Origin) {c₂ c₃ : Cursor} (hcolon : colon c₁ = .ok ((), c₂)) :
    valueWith n c₂ = .ok (j, c₃) →
    Yields c₃ (noContent s c₁)
      (match j with
      | .null => pure s
      | _ => Item.mismatch ⟨o, j⟩ "unit") := by
  intro hvalue
  have hunexpected : ∀ b (c : Cursor) (m : Mismatch),
      Yields c₃ (((unexpected b "unit" : Reader Unit) >>= fun _ => pure s) c) (.error m) :=
    fun b c m => (Yields.unexpected b "unit" c m : Yields c₃ _ _).bind (fun _ => .ok rfl)
  cases n with
  | zero => cases hvalue
  | succ n =>
    cases stands_of_valueWith hvalue with
    | null hfirst h =>
      rw [noContent_of_first s hcolon hfirst]
      exact .of_ok (bind_of_ok h)
    | yes hfirst h | no hfirst h | text hfirst h | array hfirst h | object hfirst h =>
      rw [noContent_of_first s hcolon hfirst]
      exact hunexpected _ _ _
    | number hfirst hb h =>
      rw [noContent_of_first s hcolon hfirst, startsNumeral_ne hb rfl]
      exact hunexpected _ _ _

theorem variant_of_first (h : peek? c = .ok (some b, c₁)) :
    variant names c =
      if b == 0x22 then
        ((text >>= fun s => Refusal.ofExcept (chosen names s)) >>= noContent) c₁
      else ((unexpected b "variant identifier" : Reader String) >>= noContent) c₁ := by
  unfold variant
  rw [bind_of_ok (start_of_first h), bind_assoc]
  split
  . rfl
  . rfl

theorem variant_eq_error (h : peek? c = .ok (some 0x7D, c₁)) : ∃ e, variant names c = .error e := by
  rw [variant_of_first names h]
  exact ⟨_, rfl⟩

theorem variant_follows (name : String) (o : Origin) {key : String} {c₂ c₃ c₄ : Cursor}
    (hfirst : peek? c = .ok (some 0x22, c₁)) (hkey : lexeme scanText c₁.next = .ok (key, c₂))
    (hcolon : colon c₂ = .ok ((), c₃)) (hvalue : valueWith n c₃ = .ok (j, c₄)) :
    Yields c₄ (variant names c) (Item.choice name names ⟨o, .object [(key, j)]⟩) := by
  have htext : text c₁ = .ok (key, c₂) := by
    rw [text_of_first (peek?_of_first hfirst)]
    exact hkey
  have hname : Yields c₂ ((text >>= fun s => Refusal.ofExcept (chosen names s)) c₁)
      (chosen names key) := by
    rw [bind_of_ok htext]
    exact ofExcept_yields _
  rw [variant_of_first names hfirst]
  exact hname.bind (fun s => noContent_follows s o hcolon hvalue)

theorem closeVariant_of_end (s : String) (h : peek? c = .ok (some 0x7D, c₁)) :
    closeVariant s c = .ok (s, c₁.next) := by
  unfold closeVariant
  rw [bind_of_ok h]
  rfl

theorem closeVariant_of_comma (s : String) (h : peek? c = .ok (some 0x2C, c₁)) :
    ∃ e, closeVariant s c = .error e := by
  unfold closeVariant
  rw [bind_of_ok h]
  exact ⟨_, rfl⟩

theorem choice_of_object (name : String) (o : Origin) {ms : List (String × Json)}
    (h : objectWith (anotherMember n) [] c = .ok (ms.reverse, c')) :
    Yields c' ((nested (advance >>= fun _ => variant names) >>= closeVariant) c)
      (Item.choice name names ⟨o, .object ms⟩) := by
  obtain ⟨hdepth, fuel, c₁, -, hmembers, rfl⟩ := objectWith_eq_ok h
  rw [nested_bind hdepth, bind_assoc, bind_of_ok (advance_eq _)]
  obtain ⟨_, more, c₂, ⟨⟩, hmore, ⟨rfl, hms, -⟩ | ⟨rfl, key, c₃, c₄, j, c₅, hkey, hcolon, hvalue, hmembers⟩⟩ :=
    members_eq_ok hmembers
  . rw [List.reverse_eq_nil_iff] at hms
    subst hms
    obtain ⟨e, he⟩ := variant_eq_error names (peek?_of_noMembers hmore)
    exact .of_error (bind_of_error he) _
  . have hvariant := variant_follows names name o (peek?_of_firstMember hmore) hkey hcolon hvalue
    obtain ⟨_, more', c₆, ⟨⟩, hmore', ⟨rfl, hms, rfl⟩ | ⟨rfl, key', c₇, c₈, j', c₉, -, -, -, hmembers'⟩⟩ :=
      members_eq_ok hmembers
    . have hone : ms = [(key, j)] := List.reverse_inj.mp hms
      subst hone
      have hend := peek?_of_noMembers hmore'
      rw [← bind_pure (Item.choice _ _ _)]
      exact hvariant.bind (fun s => .of_ok (closeVariant_of_end s (peek?_leave hend c.depth)))
    . obtain ⟨c', hcomma⟩ := peek?_of_nextMember hmore'
      obtain ⟨ms', hms⟩ := exists_of_members hmembers'
      have hmany : ms = (key, j) :: (key', j') :: ms' := by
        rw [← List.reverse_inj, hms]
        simp
      subst hmany
      obtain ⟨e, he⟩ := hvariant.exists_error (f := fun s c' => closeVariant s (c'.leave c.depth))
        (fun s => closeVariant_of_comma s (peek?_leave hcomma c.depth))
      exact .of_error he _

theorem choice_agrees (name : String) :
    Agrees (fun _ => choice names) (Item.choice name names) := by
  intro n c j c' o h
  cases n with
  | zero => cases h
  | succ n =>
    dsimp only
    cases stands_of_valueWith h with
    | null hfirst h | yes hfirst h | no hfirst h | array hfirst h =>
      rw [choice_of_first names hfirst]
      exact .error _ _
    | number hfirst hb h =>
      rw [choice_of_first names hfirst, startsNumeral_ne hb rfl, startsNumeral_ne hb rfl]
      exact .error _ _
    | @text c₁ _ s hfirst h =>
      have htext : text c₁ = .ok (s, c') := by
        rw [text_of_first (peek?_of_first hfirst)]
        exact h
      rw [choice_of_first names hfirst, if_pos (beq_self_eq_true _), bind_of_ok htext]
      exact ofExcept_yields _
    | object hfirst h =>
      rw [choice_of_first names hfirst]
      exact choice_of_object names name o h

end Choices

section Headers

variable {fs : List (Field Unit Reader ρ)} {fs' : List (Field Item Item.Reader ρ)}

theorem keep_agrees (key : String) :
    Agrees (WithOthers.keep (ρ := ρ) key) (WithOthers.keep (ρ := ρ) key) :=
  fun _ _ _ _ _ h => .of_ok (bind_of_ok (value_of_valueWith h))

theorem field_related (h : List.Forall₂ (Field.Related Agrees) fs fs') :
    List.Forall₂ (Field.Related Agrees) (fs.map WithOthers.field) (fs'.map WithOthers.field) := by
  rw [List.forall₂_map_left_iff, List.forall₂_map_right_iff]
  exact h.imp (fun f f' hf => ⟨hf.key, hf.presence, hf.read.map _⟩)

theorem withOthers_agrees (name : String) (h : List.Forall₂ (Field.Related Agrees) fs fs') (start : ρ) :
    Agrees (WithOthers.read name fs start) (WithOthers.read name fs' start) :=
  members_agree name (field_related h) keep_agrees ⟨start, []⟩

end Headers

end ClusterRegistration.Json.Reader

namespace ClusterRegistration

open Json

def Agreement.ofText : Agreement Unit Json.Reader where
  Agree read read' := Reader.Agrees read read'
  map f h := h.map f
  text := Reader.text_agrees
  flag := Reader.flag_agrees
  integer := Reader.integer_agrees
  choice name names := Reader.choice_agrees names name
  dictionary := Reader.dictionary_agrees
  optional h := Reader.optional_agrees h
  list h := Reader.list_agrees h
  record name _ _ start h _ := Reader.record_agrees name h start
  withHeader name _ _ start header finish h _ _ := fun n c j c' o hvalue =>
    (Reader.withOthers_agrees name h start n c j c' o hvalue).bind (fun r => by
      rw [Item.ofExcept_eq]
      exact (Reader.ofExcept_yields (header r.others)).bind (fun _ => .ok rfl))

namespace Json

theorem run_alike {α : Type} {read : Unit → Reader α} {read' : Item → Item.Reader α}
    (h : Agreement.ofText.Agree read read') (o : Origin) {body : List UInt8} {j : Json}
    (hbody : parse body = .ok j) : Alike Eq (Reader.run (read ()) body) (read' ⟨o, j⟩) := by
  obtain ⟨n, c, c', hvalue, hend⟩ := Reader.parse_eq_ok hbody
  have hread : Reader.Yields c' ((read () >>= Reader.finished) ⟨body, Reader.maxDepth⟩)
      (read' ⟨o, j⟩ >>= pure) :=
    (h n _ j c o hvalue).bind (fun a => Reader.Yields.of_ok (Reader.finished_of_end a hend))
  rw [bind_pure] at hread
  rw [Reader.run_eq]
  rw [← bind_pure (read' ⟨o, j⟩)]
  exact Alike.bind hread (fun p a h => .ok (congrArg Prod.fst h))

end Json

end ClusterRegistration
