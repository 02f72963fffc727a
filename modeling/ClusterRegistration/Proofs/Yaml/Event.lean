import ClusterRegistration.Proofs.Yaml.Node
import ClusterRegistration.Yaml.Event.Parser

namespace ClusterRegistration.Yaml

mutual

def eventKinds : Json → List EventKind
  | .text s => [.scalar .none s (Text.shown s)]
  | .flag b => [.scalar .none (if b then "true" else "false") .plain]
  | .array js => .sequenceStart .none :: (itemEvents js ++ [.sequenceEnd])
  | .object ms => .mappingStart .none :: (memberEvents ms ++ [.mappingEnd])
  | _ => []

def itemEvents : List Json → List EventKind
  | [] => []
  | j :: js => eventKinds j ++ itemEvents js

def memberEvents : List (String × Json) → List EventKind
  | [] => []
  | (k, j) :: ms => .scalar .none k .plain :: (eventKinds j ++ memberEvents ms)

end

namespace Parser

structure At (p : Parser) (ks : List TokenKind) (e : Expectation) (pending : List Expectation) :
    Prop where
  kinds : p.tokens.map (·.kind) = ks
  expectation : p.expectation = e
  pending : p.pending = pending

def Ends (p : Parser) (es : List EventKind) : Prop :=
  ∀ fuel, es.length ≤ fuel → ∃ events, p.run fuel = (events, none) ∧ events.map (·.kind) = es

def Emits (p : Parser) (es : List EventKind) (p' : Parser) : Prop :=
  ∀ es', p'.Ends es' → p.Ends (es ++ es')

theorem goesOn_of_at {p : Parser} {ks : List TokenKind} {e : Expectation} {pending : List Expectation}
    (h : p.At ks e pending) (he : e ≠ .nothing) : p.expectation ≠ .nothing := by
  rw [h.expectation]
  exact he

theorem emits_append {p p' p'' : Parser} {es es' : List EventKind} (h : p.Emits es p')
    (h' : p'.Emits es' p'') : p.Emits (es ++ es') p'' := by
  intro es'' hes
  rw [List.append_assoc]
  exact h _ (h' _ hes)

theorem emits_of_next {p p' : Parser} {event : Event} (hnext : p.next = .ok (event, p'))
    (hne : p.expectation ≠ .nothing) : p.Emits [event.kind] p' := by
  intro es hes fuel hfuel
  rw [List.length_append, List.length_singleton] at hfuel
  obtain ⟨fuel, rfl⟩ : ∃ n, fuel = n + 1 := ⟨fuel - 1, by omega⟩
  obtain ⟨events, hevents, hkinds⟩ := hes fuel (by omega)
  refine ⟨event :: events, ?_, ?_⟩
  . rw [run, if_neg hne, hnext]
    simp only [hevents]
  . rw [List.map_cons, hkinds]
    rfl

section Nodes

variable {p : Parser} {ks : List TokenKind} {kind : TokenKind} {e : Expectation}
  {pending : List Expectation} {block indentless : Bool}

theorem exists_peek (h : p.tokens.map (·.kind) = kind :: ks) :
    ∃ t, p.peek = .ok t ∧ t.kind = kind ∧ p.tokens = t :: p.tokens.tail := by
  unfold peek
  cases htokens : p.tokens with
  | nil =>
    rw [htokens] at h
    cases h
  | cons t ts =>
    rw [htokens, List.map_cons, List.cons.injEq] at h
    exact ⟨t, rfl, h.1, rfl⟩

theorem map_skip (h : p.tokens.map (·.kind) = kind :: ks) : p.skip.tokens.map (·.kind) = ks := by
  unfold skip
  rw [List.map_tail, h]
  rfl

theorem takePrelude_of_kind (h : p.tokens.map (·.kind) = kind :: ks)
    (hanchor : ∀ name, kind ≠ .anchor name) (htag : ∀ handle suffix, kind ≠ .tag handle suffix) :
    p.takePrelude = .ok (⟨none, none⟩, p) := by
  obtain ⟨t, hpeek, hkind, -⟩ := exists_peek h
  have hanchor' : p.takeAnchor = .ok (none, p) := by
    unfold takeAnchor
    rw [hpeek]
    simp only [bind, Except.bind, hkind]
    rfl
  have htag' : p.takeTag = .ok (none, p) := by
    unfold takeTag
    rw [hpeek]
    simp only [bind, Except.bind, hkind]
    rfl
  unfold takePrelude
  rw [hanchor']
  simp only [bind, Except.bind, htag']
  rfl

theorem node_of_scalar {text : String} {style : ScalarStyle}
    (h : p.tokens.map (·.kind) = .scalar text style :: ks) :
    ∃ mark, p.node block indentless = .ok (⟨.scalar .none text style, mark⟩, p.skip.resume) := by
  obtain ⟨t, hpeek, hkind, -⟩ := exists_peek h
  have hprelude := takePrelude_of_kind h (by simp) (by simp)
  refine ⟨t.start, ?_⟩
  unfold node
  rw [hpeek]
  simp only [bind, Except.bind, hkind, hprelude, hpeek]
  rfl

def opening (indentless : Bool) : TokenKind → Option (EventKind × Expectation)
  | .flowSequenceStart => some (.sequenceStart .none, .flowSequenceEntry true)
  | .flowMappingStart => some (.mappingStart .none, .flowMappingKey true)
  | .blockSequenceStart => some (.sequenceStart .none, .blockSequenceEntry true)
  | .blockMappingStart => some (.mappingStart .none, .blockMappingKey true)
  | .blockEntry => if indentless then some (.sequenceStart .none, .indentlessSequenceEntry) else none
  | _ => none

theorem node_of_opening {event : EventKind} (h : p.tokens.map (·.kind) = kind :: ks)
    (hopening : opening indentless kind = some (event, e)) :
    ∃ mark, p.node true indentless = .ok (⟨event, mark⟩, p.expect e) := by
  obtain ⟨t, hpeek, hkind, -⟩ := exists_peek h
  refine ⟨t.start, ?_⟩
  have hprelude : p.takePrelude = .ok (⟨none, none⟩, p) := by
    apply takePrelude_of_kind h
    . rintro name rfl
      cases hopening
    . rintro handle suffix rfl
      cases hopening
  unfold node
  rw [hpeek]
  simp only [bind, Except.bind, hprelude, hpeek]
  unfold opening at hopening
  split at hopening
  . cases hopening
    simp only [hkind]
    rfl
  . cases hopening
    simp only [hkind]
    rfl
  . cases hopening
    simp [hkind, resolveTag]
    rfl
  . cases hopening
    simp [hkind, resolveTag]
    rfl
  . split at hopening
    . next hindentless =>
      cases hopening
      simp [hkind, resolveTag, hindentless]
      rfl
    . cases hopening
  . cases hopening

theorem at_resume (hkinds : p.tokens.map (·.kind) = ks) (hpending : p.pending = e :: pending) :
    p.resume.At ks e pending := by
  refine ⟨hkinds, ?_, ?_⟩
  . show p.pending.head?.getD .nothing = e
    rw [hpending]
    rfl
  . show p.pending.tail = pending
    rw [hpending]
    rfl

theorem next_of_empty_sequence (h : p.At (.flowSequenceStart :: .flowSequenceEnd :: ks)
    (.flowSequenceEntry true) (e :: pending)) :
    ∃ mark p', p.next = .ok (⟨.sequenceEnd, mark⟩, p') ∧ p'.At ks e pending := by
  obtain ⟨t, hpeek, hkind, -⟩ := exists_peek h.kinds
  have hskip := map_skip h.kinds
  obtain ⟨t', hpeek', hkind', -⟩ := @exists_peek (p.enter t.start).skip _ _ hskip
  have hat := @at_resume p.skip.skip _ _ _ (map_skip hskip) h.pending
  refine ⟨t'.start, (p.enter t.start).skip.leave.skip, ?_, hat.kinds, hat.expectation, hat.pending⟩
  unfold next
  rw [h.expectation]
  simp [flowSequenceEntry, begin, hpeek, hpeek', hkind', bind, Except.bind, pure, Except.pure]
  rfl

theorem next_of_empty_mapping (h : p.At (.flowMappingStart :: .flowMappingEnd :: ks)
    (.flowMappingKey true) (e :: pending)) :
    ∃ mark p', p.next = .ok (⟨.mappingEnd, mark⟩, p') ∧ p'.At ks e pending := by
  obtain ⟨t, hpeek, hkind, -⟩ := exists_peek h.kinds
  have hskip := map_skip h.kinds
  obtain ⟨t', hpeek', hkind', -⟩ := @exists_peek (p.enter t.start).skip _ _ hskip
  have hat := @at_resume p.skip.skip _ _ _ (map_skip hskip) h.pending
  refine ⟨t'.start, (p.enter t.start).skip.leave.skip, ?_, hat.kinds, hat.expectation, hat.pending⟩
  unfold next
  rw [h.expectation]
  simp [flowMappingKey, begin, hpeek, hpeek', hkind', bind, Except.bind, pure, Except.pure]
  rfl

end Nodes

section Loops

variable {p : Parser} {ks : List TokenKind} {kind : TokenKind} {e : Expectation}
  {pending : List Expectation}

def entrance (first : Bool) (kind : TokenKind) : List TokenKind :=
  if first then [kind] else []

theorem exists_begin (first : Bool) (h : p.tokens.map (·.kind) = entrance first kind ++ ks) :
    ∃ p', p.begin first = .ok p' ∧ p'.tokens.map (·.kind) = ks ∧ p'.pending = p.pending := by
  cases first with
  | false => exact ⟨p, rfl, h, rfl⟩
  | true =>
    obtain ⟨t, hpeek, -, -⟩ := exists_peek h
    refine ⟨(p.enter t.start).skip, ?_, map_skip h, rfl⟩
    unfold begin
    rw [hpeek]
    rfl

theorem next_of_item (first : Bool)
    (h : p.At (entrance first .blockSequenceStart ++ .blockEntry :: kind :: ks)
      (.blockSequenceEntry first) pending) (hentry : kind ≠ .blockEntry) (hend : kind ≠ .blockEnd) :
    ∃ p' : Parser, p.next = p'.node true false ∧ p'.tokens.map (·.kind) = kind :: ks ∧
      p'.pending = .blockSequenceEntry false :: pending := by
  obtain ⟨p', hbegin, hkinds, hpending⟩ := exists_begin first h.kinds
  obtain ⟨t, hpeek, hkind, -⟩ := exists_peek hkinds
  obtain ⟨t', hpeek', hkind', -⟩ := @exists_peek p'.skip _ _ (map_skip hkinds)
  refine ⟨p'.skip.later (.blockSequenceEntry false), ?_, map_skip hkinds, ?_⟩
  . unfold next
    rw [h.expectation]
    simp [blockSequenceEntry, hbegin, hpeek, hkind, hpeek', isOneOf, hkind', hentry, hend, bind,
      Except.bind]
  . show _ :: p'.pending = _
    rw [hpending, h.pending]

theorem next_of_items_end (first : Bool)
    (h : p.At (entrance first .blockSequenceStart ++ .blockEnd :: ks) (.blockSequenceEntry first)
      (e :: pending)) :
    ∃ mark p', p.next = .ok (⟨.sequenceEnd, mark⟩, p') ∧ p'.At ks e pending := by
  obtain ⟨p', hbegin, hkinds, hpending⟩ := exists_begin first h.kinds
  obtain ⟨t, hpeek, hkind, -⟩ := exists_peek hkinds
  have hat := @at_resume p'.skip _ _ _ (map_skip hkinds) (hpending.trans h.pending)
  refine ⟨t.start, p'.leave.skip, ?_, hat.kinds, hat.expectation, hat.pending⟩
  unfold next
  rw [h.expectation]
  simp [blockSequenceEntry, hbegin, hpeek, hkind, bind, Except.bind]
  rfl

theorem next_of_indentless_item
    (h : p.At (.blockEntry :: kind :: ks) .indentlessSequenceEntry pending)
    (hentry : kind ≠ .blockEntry) (hend : kind ≠ .blockEnd) (hkey : kind ≠ .key)
    (hvalue : kind ≠ .value) :
    ∃ p' : Parser, p.next = p'.node true false ∧ p'.tokens.map (·.kind) = kind :: ks ∧
      p'.pending = .indentlessSequenceEntry :: pending := by
  obtain ⟨t, hpeek, hkind, -⟩ := exists_peek h.kinds
  obtain ⟨t', hpeek', hkind', -⟩ := @exists_peek p.skip _ _ (map_skip h.kinds)
  refine ⟨p.skip.later .indentlessSequenceEntry, ?_, map_skip h.kinds, ?_⟩
  . unfold next
    rw [h.expectation]
    simp [indentlessSequenceEntry, hpeek, hkind, hpeek', isOneOf, hkind', hentry, hend, hkey, hvalue,
      bind, Except.bind]
  . show _ :: p.pending = _
    rw [h.pending]

theorem next_of_indentless_end (h : p.At (kind :: ks) .indentlessSequenceEntry (e :: pending))
    (hentry : kind ≠ .blockEntry) :
    ∃ mark p', p.next = .ok (⟨.sequenceEnd, mark⟩, p') ∧ p'.At (kind :: ks) e pending := by
  obtain ⟨t, hpeek, hkind, -⟩ := exists_peek h.kinds
  refine ⟨t.start, p.resume, ?_, at_resume h.kinds h.pending⟩
  unfold next
  rw [h.expectation]
  simp [indentlessSequenceEntry, hpeek, hkind, hentry, bind, Except.bind]
  rfl

theorem next_of_member (first : Bool) {k : String} {style : ScalarStyle}
    (h : p.At (entrance first .blockMappingStart ++ .key :: .scalar k style :: ks)
      (.blockMappingKey first) pending) :
    ∃ mark p', p.next = .ok (⟨.scalar .none k style, mark⟩, p') ∧ p'.At ks .blockMappingValue pending := by
  obtain ⟨p', hbegin, hkinds, hpending⟩ := exists_begin first h.kinds
  obtain ⟨t, hpeek, hkind, -⟩ := exists_peek hkinds
  obtain ⟨t', hpeek', hkind', -⟩ := @exists_peek p'.skip _ _ (map_skip hkinds)
  obtain ⟨mark, hnode⟩ := @node_of_scalar (p'.skip.later .blockMappingValue) ks true true k style
    (map_skip hkinds)
  refine ⟨mark, _, ?_, at_resume (p := (p'.skip.later .blockMappingValue).skip)
    (map_skip (map_skip hkinds)) ?_⟩
  . unfold next
    rw [h.expectation]
    simp [blockMappingKey, hbegin, hpeek, hkind, hpeek', isOneOf, hkind', hnode, bind, Except.bind]
  . show _ :: p'.pending = _
    rw [hpending, h.pending]

theorem next_of_value (h : p.At (.value :: kind :: ks) .blockMappingValue pending)
    (hend : kind ≠ .blockEnd) (hkey : kind ≠ .key) (hvalue : kind ≠ .value) :
    ∃ p' : Parser, p.next = p'.node true true ∧ p'.tokens.map (·.kind) = kind :: ks ∧
      p'.pending = .blockMappingKey false :: pending := by
  obtain ⟨t, hpeek, hkind, -⟩ := exists_peek h.kinds
  obtain ⟨t', hpeek', hkind', -⟩ := @exists_peek p.skip _ _ (map_skip h.kinds)
  refine ⟨p.skip.later (.blockMappingKey false), ?_, map_skip h.kinds, ?_⟩
  . unfold next
    rw [h.expectation]
    simp [blockMappingValue, hpeek, hkind, hpeek', isOneOf, hkind', hend, hkey, hvalue, bind,
      Except.bind]
  . show _ :: p.pending = _
    rw [h.pending]

theorem next_of_members_end (first : Bool)
    (h : p.At (entrance first .blockMappingStart ++ .blockEnd :: ks) (.blockMappingKey first)
      (e :: pending)) :
    ∃ mark p', p.next = .ok (⟨.mappingEnd, mark⟩, p') ∧ p'.At ks e pending := by
  obtain ⟨p', hbegin, hkinds, hpending⟩ := exists_begin first h.kinds
  obtain ⟨t, hpeek, hkind, -⟩ := exists_peek hkinds
  have hat := @at_resume p'.skip _ _ _ (map_skip hkinds) (hpending.trans h.pending)
  refine ⟨t.start, p'.leave.skip, ?_, hat.kinds, hat.expectation, hat.pending⟩
  unfold next
  rw [h.expectation]
  simp [blockMappingKey, hbegin, hpeek, hkind, bind, Except.bind]
  rfl

/--
The events of a value are met, after a key and after a dash. The parser `q` finds it with its next
step; `p` is what it has become by then.
-/
structure Heard (j : Json) : Prop where
  writable : Writable j
  afterKey : ∀ {p q : Parser} {ks : List TokenKind} {e : Expectation} {pending : List Expectation},
    q.next = p.node true true → q.expectation ≠ .nothing →
      p.tokens.map (·.kind) = kindsAfterKey j ++ ks → p.pending = e :: pending →
        (∃ kind ks', ks = kind :: ks' ∧ kind ≠ .blockEntry) →
          ∃ p', q.Emits (eventKinds j) p' ∧ p'.At ks e pending
  afterDash : ∀ {p q : Parser} {ks : List TokenKind} {e : Expectation} {pending : List Expectation},
    q.next = p.node true false → q.expectation ≠ .nothing →
      p.tokens.map (·.kind) = kindsAfterDash j ++ ks → p.pending = e :: pending →
        ∃ p', q.Emits (eventKinds j) p' ∧ p'.At ks e pending

theorem exists_kindsAfterDash {j : Json} (hj : Writable j) :
    ∃ kind ks, kindsAfterDash j = kind :: ks ∧ kind ≠ .blockEntry ∧ kind ≠ .blockEnd ∧ kind ≠ .key ∧
      kind ≠ .value := by
  cases hj with
  | text text => simp [kindsAfterDash, leafKinds]
  | flag b => simp [kindsAfterDash, leafKinds]
  | @array js hjs => cases js <;> simp [kindsAfterDash, leafKinds]
  | @object ms hkeys hms => cases ms <;> simp [kindsAfterDash, leafKinds]

theorem exists_kindsAfterKey {j : Json} (hj : Writable j) :
    ∃ kind ks, kindsAfterKey j = kind :: ks ∧ kind ≠ .blockEnd ∧ kind ≠ .key ∧ kind ≠ .value := by
  cases hj with
  | text text => simp [kindsAfterKey, leafKinds]
  | flag b => simp [kindsAfterKey, leafKinds]
  | @array js hjs => cases js <;> simp [kindsAfterKey, itemKinds, leafKinds]
  | @object ms hkeys hms => cases ms <;> simp [kindsAfterKey, leafKinds]

theorem emits_items {js : List Json} (hjs : ∀ j ∈ js, Heard j) (first : Bool)
    (h : p.At (entrance first .blockSequenceStart ++ (itemKinds js ++ .blockEnd :: ks))
      (.blockSequenceEntry first) (e :: pending)) :
    ∃ p', p.Emits (itemEvents js ++ [.sequenceEnd]) p' ∧ p'.At ks e pending := by
  have hne : p.expectation ≠ .nothing := goesOn_of_at h (by simp)
  induction js generalizing p first with
  | nil =>
    obtain ⟨mark, p', hnext, hat⟩ := next_of_items_end first h
    exact ⟨p', emits_of_next hnext hne, hat⟩
  | cons j js ih =>
    have hj := hjs j List.mem_cons_self
    obtain ⟨kind, ks', hkinds, hentry, hend, -, -⟩ := exists_kindsAfterDash hj.writable
    rw [itemKinds, hkinds] at h
    simp only [List.cons_append, List.append_assoc] at h
    obtain ⟨p₁, hnext, hkinds₁, hpending₁⟩ := next_of_item first h hentry hend
    obtain ⟨p₂, hemits, hat⟩ := @Heard.afterDash j hj p₁ p (itemKinds js ++ .blockEnd :: ks) _ _ hnext hne
      (by rw [hkinds₁, hkinds]; rfl) hpending₁
    obtain ⟨p₃, hemits', hat'⟩ := ih (fun j' hj' => hjs j' (List.mem_cons_of_mem j hj')) false hat
      (goesOn_of_at hat (by simp))
    refine ⟨p₃, ?_, hat'⟩
    rw [itemEvents, List.append_assoc]
    exact emits_append hemits hemits'

theorem emits_indentless_items {js : List Json} (hjs : ∀ j ∈ js, Heard j) (hkind : kind ≠ .blockEntry)
    (h : p.At (itemKinds js ++ kind :: ks) .indentlessSequenceEntry (e :: pending)) :
    ∃ p', p.Emits (itemEvents js ++ [.sequenceEnd]) p' ∧ p'.At (kind :: ks) e pending := by
  have hne : p.expectation ≠ .nothing := goesOn_of_at h (by simp)
  induction js generalizing p with
  | nil =>
    obtain ⟨mark, p', hnext, hat⟩ := next_of_indentless_end h hkind
    exact ⟨p', emits_of_next hnext hne, hat⟩
  | cons j js ih =>
    have hj := hjs j List.mem_cons_self
    obtain ⟨kind', ks', hkinds, hentry, hend, hkey, hvalue⟩ := exists_kindsAfterDash hj.writable
    rw [itemKinds, hkinds] at h
    simp only [List.cons_append, List.append_assoc] at h
    obtain ⟨p₁, hnext, hkinds₁, hpending₁⟩ := next_of_indentless_item h hentry hend hkey hvalue
    obtain ⟨p₂, hemits, hat⟩ := @Heard.afterDash j hj p₁ p (itemKinds js ++ kind :: ks) _ _ hnext hne
      (by rw [hkinds₁, hkinds]; rfl) hpending₁
    obtain ⟨p₃, hemits', hat'⟩ := ih (fun j' hj' => hjs j' (List.mem_cons_of_mem j hj')) hat
      (goesOn_of_at hat (by simp))
    refine ⟨p₃, ?_, hat'⟩
    rw [itemEvents, List.append_assoc]
    exact emits_append hemits hemits'

theorem emits_members {ms : List (String × Json)} (hms : ∀ m ∈ ms, Heard m.2) (first : Bool)
    (h : p.At (entrance first .blockMappingStart ++ (memberKinds ms ++ .blockEnd :: ks))
      (.blockMappingKey first) (e :: pending)) :
    ∃ p', p.Emits (memberEvents ms ++ [.mappingEnd]) p' ∧ p'.At ks e pending := by
  have hne : p.expectation ≠ .nothing := goesOn_of_at h (by simp)
  induction ms generalizing p first with
  | nil =>
    obtain ⟨mark, p', hnext, hat⟩ := next_of_members_end first h
    exact ⟨p', emits_of_next hnext hne, hat⟩
  | cons m ms ih =>
    obtain ⟨k, j⟩ := m
    have hj : Heard j := hms _ List.mem_cons_self
    obtain ⟨kind', ks', hkinds, hend, hkey, hvalue⟩ := exists_kindsAfterKey hj.writable
    rw [memberKinds, hkinds] at h
    simp only [List.cons_append, List.append_assoc] at h
    obtain ⟨mark, p₁, hnext, hat⟩ := next_of_member first h
    have hne₁ : p₁.expectation ≠ .nothing := goesOn_of_at hat (by simp)
    obtain ⟨p₂, hnext₂, hkinds₂, hpending₂⟩ := next_of_value hat hend hkey hvalue
    -- After the value comes another key, or the end of the mapping.
    have hfollows : ∃ kind ks', memberKinds ms ++ .blockEnd :: ks = kind :: ks' ∧ kind ≠ .blockEntry := by
      cases ms with
      | nil => exact ⟨_, _, rfl, by simp⟩
      | cons m ms => exact ⟨_, _, by rw [memberKinds]; rfl, by simp⟩
    obtain ⟨p₃, hemits, hat₃⟩ := @Heard.afterKey j hj p₂ p₁ (memberKinds ms ++ .blockEnd :: ks) _ _ hnext₂
      hne₁ (by rw [hkinds₂, hkinds]; rfl) hpending₂ hfollows
    obtain ⟨p₄, hemits', hat₄⟩ := ih (fun m' hm' => hms m' (List.mem_cons_of_mem _ hm')) false hat₃
      (goesOn_of_at hat₃ (by simp))
    refine ⟨p₄, ?_, hat₄⟩
    rw [memberEvents, List.cons_append, List.append_assoc]
    exact emits_append (emits_of_next hnext hne) (emits_append hemits hemits')

theorem heard_of_leaf {j : Json} {text : String} {style : ScalarStyle} (hj : Writable j)
    (hkey : kindsAfterKey j = [.scalar text style]) (hdash : kindsAfterDash j = [.scalar text style])
    (hevents : eventKinds j = [.scalar .none text style]) : Heard j := by
  have hread {p q : Parser} {ks : List TokenKind} {e : Expectation} {pending : List Expectation}
      {indentless : Bool} (hnext : q.next = p.node true indentless) (hne : q.expectation ≠ .nothing)
      (hkinds : p.tokens.map (·.kind) = .scalar text style :: ks) (hpending : p.pending = e :: pending) :
      ∃ p', q.Emits (eventKinds j) p' ∧ p'.At ks e pending := by
    obtain ⟨mark, hnode⟩ := @node_of_scalar p ks true indentless text style hkinds
    rw [hevents]
    exact ⟨_, emits_of_next (hnext.trans hnode) hne, at_resume (p := p.skip) (map_skip hkinds) hpending⟩
  constructor
  . exact hj
  . intro p q ks e pending hnext hne hkinds hpending hfollows
    rw [hkey] at hkinds
    exact hread hnext hne hkinds hpending
  . intro p q ks e pending hnext hne hkinds hpending
    rw [hdash] at hkinds
    exact hread hnext hne hkinds hpending

theorem emits_of_opening {q : Parser} {indentless : Bool} {event : EventKind} {inner : Expectation}
    (hnext : q.next = p.node true indentless) (hne : q.expectation ≠ .nothing)
    (hkinds : p.tokens.map (·.kind) = kind :: ks)
    (hopening : opening indentless kind = some (event, inner)) (hpending : p.pending = pending) :
    ∃ p', q.Emits [event] p' ∧ p'.At (kind :: ks) inner pending := by
  obtain ⟨mark, hnode⟩ := node_of_opening hkinds hopening
  exact ⟨_, emits_of_next (hnext.trans hnode) hne, hkinds, rfl, hpending⟩

theorem heard_array {js : List Json} (hj : Writable (.array js)) (hjs : ∀ j ∈ js, Heard j) :
    Heard (.array js) := by
  have hempty {p q : Parser} {ks : List TokenKind} {e : Expectation} {pending : List Expectation}
      {indentless : Bool} (hnext : q.next = p.node true indentless) (hne : q.expectation ≠ .nothing)
      (hkinds : p.tokens.map (·.kind) = .flowSequenceStart :: .flowSequenceEnd :: ks)
      (hpending : p.pending = e :: pending) :
      ∃ p', q.Emits [.sequenceStart .none, .sequenceEnd] p' ∧ p'.At ks e pending := by
    obtain ⟨p₁, hemits, hat⟩ := emits_of_opening hnext hne hkinds rfl hpending
    obtain ⟨mark, p₂, hnext', hat'⟩ := next_of_empty_sequence hat
    refine ⟨p₂, emits_append hemits (emits_of_next hnext' ?_), hat'⟩
    rw [hat.expectation]
    simp
  constructor
  . exact hj
  . intro p q ks e pending hnext hne hkinds hpending hfollows
    cases js with
    | nil =>
      rw [eventKinds, itemEvents]
      exact hempty hnext hne (by simpa [kindsAfterKey, leafKinds] using hkinds) hpending
    | cons j js =>
      -- The items after a key are not indented, so nothing but the next key tells where they end.
      obtain ⟨kind, ks, rfl, hkind⟩ := hfollows
      rw [kindsAfterKey] at hkinds
      obtain ⟨p₁, hemits, hat⟩ := emits_of_opening hnext hne
        (show _ = .blockEntry :: (kindsAfterDash j ++ itemKinds js ++ kind :: ks) by
          rw [hkinds, itemKinds, List.cons_append]) rfl hpending
      have hat : p₁.At (itemKinds (j :: js) ++ kind :: ks) .indentlessSequenceEntry (e :: pending) := by
        rw [itemKinds, List.cons_append]
        exact hat
      obtain ⟨p₂, hemits', hat'⟩ := emits_indentless_items hjs hkind hat
      rw [eventKinds]
      exact ⟨p₂, emits_append hemits hemits', hat'⟩
  . intro p q ks e pending hnext hne hkinds hpending
    cases js with
    | nil =>
      rw [eventKinds, itemEvents]
      exact hempty hnext hne (by simpa [kindsAfterDash, leafKinds] using hkinds) hpending
    | cons j js =>
      rw [kindsAfterDash, List.cons_append, List.append_assoc] at hkinds
      obtain ⟨p₁, hemits, hat⟩ := emits_of_opening hnext hne hkinds rfl hpending
      obtain ⟨p₂, hemits', hat'⟩ := emits_items hjs true hat
      rw [eventKinds]
      exact ⟨p₂, emits_append hemits hemits', hat'⟩

theorem heard_object {ms : List (String × Json)} (hj : Writable (.object ms))
    (hms : ∀ m ∈ ms, Heard m.2) : Heard (.object ms) := by
  have hread {p q : Parser} {ks : List TokenKind} {e : Expectation} {pending : List Expectation}
      {indentless : Bool} (hnext : q.next = p.node true indentless) (hne : q.expectation ≠ .nothing)
      (hkinds : p.tokens.map (·.kind) = kindsAfterDash (.object ms) ++ ks)
      (hpending : p.pending = e :: pending) :
      ∃ p', q.Emits (eventKinds (.object ms)) p' ∧ p'.At ks e pending := by
    rw [eventKinds]
    cases ms with
    | nil =>
      have hkinds : p.tokens.map (·.kind) = .flowMappingStart :: .flowMappingEnd :: ks := by
        simpa [kindsAfterDash, leafKinds] using hkinds
      obtain ⟨p₁, hemits, hat⟩ := emits_of_opening hnext hne hkinds rfl hpending
      obtain ⟨mark, p₂, hnext', hat'⟩ := next_of_empty_mapping hat
      refine ⟨p₂, emits_append hemits (emits_of_next hnext' ?_), hat'⟩
      rw [hat.expectation]
      simp
    | cons m ms =>
      rw [kindsAfterDash, List.cons_append, List.append_assoc] at hkinds
      obtain ⟨p₁, hemits, hat⟩ := emits_of_opening hnext hne hkinds rfl hpending
      obtain ⟨p₂, hemits', hat'⟩ := emits_members hms true hat
      exact ⟨p₂, emits_append hemits hemits', hat'⟩
  -- Unlike a list, a mapping is indented wherever it stands.
  have hsame : kindsAfterKey (.object ms) = kindsAfterDash (.object ms) := by
    cases ms <;> simp [kindsAfterKey, kindsAfterDash, leafKinds]
  constructor
  . exact hj
  . intro p q ks e pending hnext hne hkinds hpending hfollows
    rw [hsame] at hkinds
    exact hread hnext hne hkinds hpending
  . intro p q ks e pending hnext hne hkinds hpending
    exact hread hnext hne hkinds hpending

theorem heard_of_writable {j : Json} (h : Writable j) : Heard j := by
  induction h with
  | text text =>
    apply @heard_of_leaf _ text (Text.shown text) (.text text)
    . simp [kindsAfterKey, leafKinds]
    . simp [kindsAfterDash, leafKinds]
    . simp [eventKinds]
  | flag b =>
    apply @heard_of_leaf _ (if b then "true" else "false") .plain (.flag b)
    . simp [kindsAfterKey, leafKinds]
    . simp [kindsAfterDash, leafKinds]
    . simp [eventKinds]
  | array h ih => exact heard_array (.array h) ih
  | object hkeys h ih => exact heard_object (.object hkeys h) ih

end Loops

section Documents

variable {p : Parser} {ks : List TokenKind} {kind : TokenKind} {pending : List Expectation}

theorem next_of_stream_start (h : p.At (kind :: ks) .streamStart pending) :
    ∃ mark p', p.next = .ok (⟨.streamStart, mark⟩, p') ∧ p'.At ks (.document true) pending := by
  obtain ⟨t, hpeek, -, -⟩ := exists_peek h.kinds
  refine ⟨t.start, p.skip.expect (.document true), ?_, map_skip h.kinds, rfl, h.pending⟩
  unfold next
  rw [h.expectation]
  simp [hpeek, bind, Except.bind]
  rfl

theorem next_of_document (h : p.At (.blockMappingStart :: ks) (.document true) pending) :
    ∃ mark p', p.next = .ok (⟨.documentStart, mark⟩, p') ∧
      p'.At (.blockMappingStart :: ks) .blockNode (.documentEnd :: pending) := by
  obtain ⟨t, hpeek, hkind, -⟩ := exists_peek h.kinds
  refine ⟨t.start, p.beginDocument defaultHandles .blockNode, ?_, h.kinds, rfl, ?_⟩
  . unfold next
    rw [h.expectation]
    simp [document, hpeek, hkind, bind, Except.bind]
    rfl
  . show _ :: p.pending = _
    rw [h.pending]

theorem next_of_document_end (h : p.At [.streamEnd] .documentEnd pending) :
    ∃ mark p', p.next = .ok (⟨.documentEnd, mark⟩, p') ∧ p'.At [.streamEnd] (.document false) pending := by
  obtain ⟨t, hpeek, hkind, -⟩ := exists_peek h.kinds
  refine ⟨t.start, p.expect (.document false), ?_, h.kinds, rfl, h.pending⟩
  unfold next
  rw [h.expectation]
  simp [documentEnd, hpeek, hkind, bind, Except.bind]
  rfl

theorem next_of_stream_end (h : p.At [.streamEnd] (.document false) pending) :
    ∃ mark p', p.next = .ok (⟨.streamEnd, mark⟩, p') ∧ p'.expectation = .nothing := by
  obtain ⟨t, hpeek, hkind, htokens⟩ := exists_peek h.kinds
  have hskip : p.skipDocumentEnds = p := by
    unfold skipDocumentEnds
    rw [htokens, List.dropWhile_cons_of_neg]
    . rw [← htokens]
    . simp [hkind]
  refine ⟨t.start, p.skip.expect .nothing, ?_, rfl⟩
  unfold next
  rw [h.expectation]
  simp [document, hskip, hpeek, hkind, bind, Except.bind]
  rfl

theorem ends_of_nothing (h : p.expectation = .nothing) : p.Ends [] := by
  intro fuel hfuel
  cases fuel with
  | zero => exact ⟨[], rfl, rfl⟩
  | succ fuel =>
    refine ⟨[], ?_, rfl⟩
    rw [run, if_pos h]

theorem ends_of_heard {j : Json} (hj : Heard j) (hkind : kindsAfterDash j = .blockMappingStart :: ks)
    (h : p.At (.streamStart :: (kindsAfterDash j ++ [.streamEnd])) .streamStart []) :
    p.Ends (.streamStart :: .documentStart :: (eventKinds j ++ [.documentEnd, .streamEnd])) := by
  obtain ⟨_, p₁, hnext₁, hat₁⟩ := next_of_stream_start h
  rw [hkind] at hat₁
  obtain ⟨_, p₂, hnext₂, hat₂⟩ := next_of_document hat₁
  have hblock : p₂.next = p₂.node true false := by
    rw [next, hat₂.expectation]
  have hkinds₂ := hat₂.kinds
  rw [List.append_eq, ← List.cons_append, ← hkind] at hkinds₂
  obtain ⟨p₃, hemits, hat₃⟩ := hj.afterDash hblock (goesOn_of_at hat₂ (by simp)) hkinds₂ hat₂.pending
  obtain ⟨_, p₄, hnext₄, hat₄⟩ := next_of_document_end hat₃
  obtain ⟨_, p₅, hnext₅, hnothing⟩ := next_of_stream_end hat₄
  have hstart := emits_of_next hnext₁ (goesOn_of_at h (by simp))
  have hdocument := emits_of_next hnext₂ (goesOn_of_at hat₁ (by simp))
  have hdocumentEnd := emits_of_next hnext₄ (goesOn_of_at hat₃ (by simp))
  have hend := emits_of_next hnext₅ (goesOn_of_at hat₄ (by simp))
  have hall := emits_append hstart (emits_append hdocument (emits_append hemits
    (emits_append hdocumentEnd hend)))
  simpa using hall [] (ends_of_nothing hnothing)

end Documents

end Parser

theorem length_eventKinds {j : Json} (h : Writable j) :
    (eventKinds j).length ≤ 2 * (kindsAfterDash j).length ∧
      (eventKinds j).length ≤ 2 * (kindsAfterKey j).length := by
  induction h with
  | text text => simp [eventKinds, kindsAfterDash, kindsAfterKey, leafKinds]
  | flag b => simp [eventKinds, kindsAfterDash, kindsAfterKey, leafKinds]
  | @array js h ih =>
    -- The dashes leave room for the events at the start and at the end of the list.
    have hitems : (itemEvents js).length + 2 * js.length ≤ 2 * (itemKinds js).length := by
      clear h
      induction js with
      | nil => simp [itemEvents, itemKinds]
      | cons j js ih' =>
        have hj := (ih j List.mem_cons_self).1
        have hjs := ih' (fun j' hj' => ih j' (List.mem_cons_of_mem j hj'))
        simp only [itemEvents, itemKinds, List.length_append, List.length_cons]
        omega
    cases js with
    | nil => simp [eventKinds, itemEvents, kindsAfterDash, kindsAfterKey, leafKinds]
    | cons j js =>
      simp only [eventKinds, kindsAfterDash, kindsAfterKey, List.length_append, List.length_cons,
        List.length_nil] at hitems ⊢
      omega
  | @object ms hkeys h ih =>
    have hmembers : (memberEvents ms).length + 2 * ms.length ≤ 2 * (memberKinds ms).length := by
      clear h hkeys
      induction ms with
      | nil => simp [memberEvents, memberKinds]
      | cons m ms ih' =>
        have hj := (ih m List.mem_cons_self).2
        have hms := ih' (fun m' hm' => ih m' (List.mem_cons_of_mem m hm'))
        simp only [memberEvents, memberKinds, List.length_append, List.length_cons]
        omega
    cases ms with
    | nil => simp [eventKinds, memberEvents, kindsAfterDash, kindsAfterKey, leafKinds]
    | cons m ms =>
      simp only [eventKinds, kindsAfterDash, kindsAfterKey, List.length_append, List.length_cons,
        List.length_nil] at hmembers ⊢
      omega

theorem events_render {m : String × Json} {ms : List (String × Json)}
    (h : Writable (.object (m :: ms))) :
    ∃ es, events (render (.object (m :: ms))).toList = (es, none) ∧
      es.map (·.kind) =
        .streamStart :: .documentStart :: (eventKinds (.object (m :: ms)) ++ [.documentEnd, .streamEnd]) := by
  obtain ⟨ts, hts, hkinds⟩ := tokens_render h
  have hlength : ts.length = (kindsAfterDash (.object (m :: ms))).length + 2 := by
    rw [← List.length_map (fun t : Token => t.kind), hkinds, List.length_cons, List.length_append,
      List.length_singleton]
  have hcount := (length_eventKinds h).1
  have hends := @Parser.ends_of_heard (Parser.start ts none) _ _ (Parser.heard_of_writable h)
    (by rw [kindsAfterDash]) ⟨hkinds, rfl, rfl⟩
  obtain ⟨es, hes, heventKinds⟩ := hends (3 * ts.length + 8) (by
    simp only [List.length_cons, List.length_append, List.length_nil]
    omega)
  refine ⟨es, ?_, heventKinds⟩
  unfold events
  rw [hts]
  exact hes

end ClusterRegistration.Yaml
