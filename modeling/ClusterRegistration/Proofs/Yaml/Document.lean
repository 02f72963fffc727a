import ClusterRegistration.Proofs.Yaml.Event
import ClusterRegistration.Yaml.Document

namespace ClusterRegistration.Yaml

def Item.ofEvent? : EventKind → Option Item
  | .scalar ⟨none, tag⟩ text style => some (.scalar tag text style)
  | .sequenceStart ⟨none, _⟩ => some .sequenceStart
  | .sequenceEnd => some .sequenceEnd
  | .mappingStart ⟨none, _⟩ => some .mappingStart
  | .mappingEnd => some .mappingEnd
  | _ => none

def itemsOf (j : Json) : List Item :=
  (eventKinds j).filterMap Item.ofEvent?

theorem isSome_ofEvent? {j : Json} (h : Writable j) :
    ∀ e ∈ eventKinds j, (Item.ofEvent? e).isSome = true := by
  induction h with
  | text text => simp [eventKinds, Item.ofEvent?, Properties.none]
  | flag b => simp [eventKinds, Item.ofEvent?, Properties.none]
  | @array js h ih =>
    have hitems : ∀ e ∈ itemEvents js, (Item.ofEvent? e).isSome = true := by
      clear h
      -- Over the items, inside of the induction over the value.
      induction js with
      | nil => simp [itemEvents]
      | cons j js ih' =>
        intro e he
        rw [itemEvents, List.mem_append] at he
        rcases he with he | he
        . exact ih j List.mem_cons_self e he
        . exact ih' (fun j' hj' => ih j' (List.mem_cons_of_mem j hj')) e he
    intro e he
    rw [eventKinds, List.mem_cons, List.mem_append, List.mem_singleton] at he
    rcases he with rfl | he | rfl
    . rfl
    . exact hitems e he
    . rfl
  | @object ms hkeys h ih =>
    have hmembers : ∀ e ∈ memberEvents ms, (Item.ofEvent? e).isSome = true := by
      clear h hkeys
      induction ms with
      | nil => simp [memberEvents]
      | cons m ms ih' =>
        intro e he
        rw [memberEvents, List.mem_cons, List.mem_append] at he
        rcases he with rfl | he | he
        . rfl
        . exact ih m List.mem_cons_self e he
        . exact ih' (fun m' hm' => ih m' (List.mem_cons_of_mem m hm')) e he
    intro e he
    rw [eventKinds, List.mem_cons, List.mem_append, List.mem_singleton] at he
    rcases he with rfl | he | rfl
    . rfl
    . exact hmembers e he
    . rfl

@[simp]
theorem itemsOf_text (s : String) : itemsOf (.text s) = [.scalar none s (Text.shown s)] := by
  simp [itemsOf, eventKinds, Item.ofEvent?, Properties.none]

@[simp]
theorem itemsOf_flag (b : Bool) :
    itemsOf (.flag b) = [.scalar none (if b then "true" else "false") .plain] := by
  simp [itemsOf, eventKinds, Item.ofEvent?, Properties.none]

theorem itemsOf_array (js : List Json) :
    itemsOf (.array js) = .sequenceStart :: (js.flatMap itemsOf ++ [.sequenceEnd]) := by
  have hitems : (itemEvents js).filterMap Item.ofEvent? = js.flatMap itemsOf := by
    induction js with
    | nil => simp [itemEvents]
    | cons j js ih => rw [itemEvents, List.filterMap_append, ih, List.flatMap_cons, itemsOf]
  simp [itemsOf, eventKinds, Item.ofEvent?, Properties.none, hitems]

def memberItems (m : String × Json) : List Item :=
  .scalar none m.1 .plain :: itemsOf m.2

theorem itemsOf_object (ms : List (String × Json)) :
    itemsOf (.object ms) = .mappingStart :: (ms.flatMap memberItems ++ [.mappingEnd]) := by
  have hmembers : (memberEvents ms).filterMap Item.ofEvent? = ms.flatMap memberItems := by
    induction ms with
    | nil => simp [memberEvents]
    | cons m ms ih =>
      simp [memberEvents, memberItems, itemsOf, Item.ofEvent?, Properties.none, ih]
  simp [itemsOf, eventKinds, Item.ofEvent?, Properties.none, hmembers]

namespace Document

theorem ofEvents_append (error : Option SyntaxError) (d : Draft) {es rest : List Event}
    (h : ∀ e ∈ es, (Item.ofEvent? e.kind).isSome = true) :
    ∃ items : Items, items.map (·.1) = (es.map (·.kind)).filterMap Item.ofEvent? ∧
      ofEvents error d (es ++ rest) =
        ofEvents error { d with items := items.reverse ++ d.items } rest := by
  induction es generalizing d with
  | nil => exact ⟨[], rfl, rfl⟩
  | cons e es ih =>
    obtain ⟨item, hitem⟩ := Option.isSome_iff_exists.mp (h e List.mem_cons_self)
    have hes : ∀ e' ∈ es, (Item.ofEvent? e'.kind).isSome = true :=
      fun e' he' => h e' (List.mem_cons_of_mem e he')
    obtain ⟨items, hitems, hof⟩ := ih (d.push item e.mark) hes
    refine ⟨(item, e.mark) :: items, ?_, ?_⟩
    . simp [hitem, hitems]
    . have hstep : ofEvents error d (e :: es ++ rest) = ofEvents error (d.push item e.mark) (es ++ rest) := by
        obtain ⟨kind, mark⟩ := e
        unfold Item.ofEvent? at hitem
        split at hitem
        all_goals cases hitem
        all_goals
          rename_i hkind
          cases hkind
          rfl
      rw [hstep, hof]
      simp [Draft.push]

theorem ofChars_render {m : String × Json} {ms : List (String × Json)}
    (h : Writable (.object (m :: ms))) :
    ∃ items : Items, items.map (·.1) = itemsOf (.object (m :: ms)) ∧
      ofChars (render (.object (m :: ms))).toList = ⟨items, [], none, false⟩ := by
  obtain ⟨es, hes, hkinds⟩ := events_render h
  -- The stream and its document each begin and end with one event.
  obtain ⟨start, es, rfl, hstart, hkinds⟩ := List.map_eq_cons_iff.mp hkinds
  obtain ⟨begin, es, rfl, hbegin, hkinds⟩ := List.map_eq_cons_iff.mp hkinds
  obtain ⟨content, last, rfl, hcontent, hlast⟩ := List.map_eq_append_iff.mp hkinds
  obtain ⟨finish, last, rfl, hfinish, hlast⟩ := List.map_eq_cons_iff.mp hlast
  obtain ⟨stop, last, rfl, hstop, hlast⟩ := List.map_eq_cons_iff.mp hlast
  rw [List.map_eq_nil_iff] at hlast
  subst hlast
  have hsome : ∀ e ∈ content, (Item.ofEvent? e.kind).isSome = true := by
    intro e he
    apply isSome_ofEvent? h
    rw [← hcontent]
    exact List.mem_map_of_mem he
  obtain ⟨items, hitems, hof⟩ := @ofEvents_append none default content [finish, stop] hsome
  refine ⟨items, ?_, ?_⟩
  . rw [hitems, hcontent]
    rfl
  . obtain ⟨_, _⟩ := start
    obtain ⟨_, _⟩ := begin
    obtain ⟨_, _⟩ := finish
    obtain ⟨_, _⟩ := stop
    cases hstart
    cases hbegin
    cases hfinish
    cases hstop
    unfold ofChars
    rw [hes]
    simp only [ofEvents, hof]
    simp [Draft.finish, continues]
    exact ⟨rfl, rfl⟩

end Document

end ClusterRegistration.Yaml
