import ClusterRegistration.Proofs.Yaml.Document
import ClusterRegistration.Yaml.Reader

namespace ClusterRegistration.Yaml

open Record (Partial)

namespace Reader

variable {α β : Type}

def go (r : Reader α) (d : Document) (p : Progress) : Except Error (α × Progress) :=
  StateT.run (ReaderT.run r d) p

theorem go_bind {r : Reader α} {f : α → Reader β} {d : Document} {p p' : Progress} {a : α}
    (h : go r d p = .ok (a, p')) : go (r >>= f) d p = go (f a) d p' := by
  show (go r d p >>= fun x => go (f x.1) d x.2) = _
  rw [h]
  rfl

theorem go_map {r : Reader α} {d : Document} {p p' : Progress} {a : α} (f : α → β)
    (h : go r d p = .ok (a, p')) : go (f <$> r) d p = .ok (f a, p') := by
  show (go r d p >>= fun x => pure (f x.1, x.2)) = _
  rw [h]
  rfl

section Steps

variable {d : Document} {item : Item} {mark : Mark} {rest : Items} {jumps : Nat}

theorem go_peek : go peek d ⟨(item, mark) :: rest, jumps⟩ = .ok ((item, mark), ⟨(item, mark) :: rest, jumps⟩) :=
  rfl

theorem go_advance : go advance d ⟨(item, mark) :: rest, jumps⟩ = .ok ((), ⟨rest, jumps⟩) :=
  rfl

theorem go_fuel {p : Progress} : go fuel d p = .ok (p.rest.length + 1, p) :=
  rfl

theorem go_located {r : Reader α} {p p' : Progress} {a : α} (location : Location)
    (h : go r d p = .ok (a, p')) : go (located location mark r) d p = .ok (a, p') := by
  show tryCatch (go r d p) _ = _
  rw [h]
  rfl

theorem go_node {read : Item → Reader α} {p' : Progress} {a : α} (location : Location)
    (hitem : ∀ n, item ≠ .alias n) (h : go (read item) d ⟨rest, jumps⟩ = .ok (a, p')) :
    go (node location read) d ⟨(item, mark) :: rest, jumps⟩ = .ok (a, p') := by
  unfold node
  rw [go_bind go_peek]
  simp only
  rw [go_bind go_advance]
  exact go_located location h

end Steps

def Delivers (read : Location → Reader α) (is : List Item) (a : α) : Prop :=
  ∀ (location : Location) (d : Document) (items rest : Items) (jumps : Nat),
    items.map (·.1) = is → go (read location) d ⟨items ++ rest, jumps⟩ = .ok (a, ⟨rest, jumps⟩)

theorem delivers_map {read : Location → Reader α} {is : List Item} {a : α} (f : α → β)
    (h : Delivers read is a) : Delivers (fun location => f <$> read location) is (f a) :=
  fun location d items rest jumps hitems => go_map f (h location d items rest jumps hitems)

theorem delivers_text (expected s : String) (tag : Option String) (style : ScalarStyle) :
    Delivers (textAs expected) [.scalar tag s style] s := by
  intro location d items rest jumps hitems
  obtain ⟨⟨item, mark⟩, items, rfl, hitem, hitems⟩ := List.map_eq_cons_iff.mp hitems
  rw [List.map_eq_nil_iff] at hitems
  subst hitems
  cases hitem
  apply go_node location (by simp)
  rfl

theorem delivers_flag (b : Bool) :
    Delivers flag [.scalar none (if b then "true" else "false") .plain] b := by
  intro location d items rest jumps hitems
  obtain ⟨⟨item, mark⟩, items, rfl, hitem, hitems⟩ := List.map_eq_cons_iff.mp hitems
  rw [List.map_eq_nil_iff] at hitems
  subst hitems
  cases hitem
  apply go_node location (by simp)
  cases b <;> rfl

def Present (item : Item) : Prop :=
  isAbsent item = .ok false ∧ (∀ n, item ≠ .alias n) ∧ item ≠ .sequenceEnd

theorem delivers_optional {read : Location → Reader α} {item : Item} {is : List Item} {a : α}
    (h : Delivers read (item :: is) a) (hitem : Present item) :
    Delivers (optional read) (item :: is) (some a) := by
  intro location d items rest jumps hitems
  have hread := h location d items rest jumps hitems
  obtain ⟨⟨item, mark⟩, items, rfl, rfl, hitems⟩ := List.map_eq_cons_iff.mp hitems
  obtain ⟨habsent, halias, -⟩ := hitem
  have hhere : go (optional.here read location) d ⟨(item, mark) :: items ++ rest, jumps⟩ =
      .ok (some a, ⟨rest, jumps⟩) := by
    unfold optional.here
    rw [List.cons_append, go_bind go_peek]
    simp only [habsent]
    exact go_map some hread
  unfold optional
  rw [List.cons_append, go_bind go_peek]
  simp only
  exact hhere

section Lists

variable {read : Location → Reader α} {is : List Item} {as : List α}

inductive DeliversAll (read : Location → Reader α) : List Item → List α → Prop where
  | nil : DeliversAll read [] []
  | cons {item : Item} {is is' : List Item} {a : α} {as : List α} (h : Delivers read (item :: is) a)
    (hitem : Present item) (hs : DeliversAll read is' as) :
    DeliversAll read (item :: is ++ is') (a :: as)

theorem length_le_of_deliversAll (h : DeliversAll read is as) : as.length ≤ is.length := by
  induction h with
  | nil => exact Nat.le_refl _
  | cons h hitem hs ih =>
    rw [List.length_append, List.length_cons, List.length_cons]
    omega

theorem go_entries (h : DeliversAll read is as) {location : Location} {d : Document} {fuel i : Nat}
    {items rest : Items} {jumps : Nat} (hitems : items.map (·.1) = is ++ [.sequenceEnd])
    (hfuel : as.length < fuel) :
    go (entries read location fuel i) d ⟨items ++ rest, jumps⟩ = .ok (as, ⟨rest, jumps⟩) := by
  induction h generalizing fuel i items with
  | nil =>
    obtain ⟨fuel, rfl⟩ : ∃ n, fuel = n + 1 := ⟨fuel - 1, by omega⟩
    obtain ⟨⟨item, mark⟩, items, rfl, hitem, hitems⟩ := List.map_eq_cons_iff.mp hitems
    rw [List.map_eq_nil_iff] at hitems
    subst hitems
    cases hitem
    unfold entries
    rw [List.cons_append, go_bind go_peek]
    rfl
  | @cons item is is' a as h hitem hs ih =>
    obtain ⟨fuel, rfl⟩ : ∃ n, fuel = n + 1 := ⟨fuel - 1, by omega⟩
    rw [List.append_assoc] at hitems
    obtain ⟨items, items', rfl, hitems, hitems'⟩ := List.map_eq_append_iff.mp hitems
    have hread := h (location ++ [.index i]) d items (items' ++ rest) jumps hitems
    obtain ⟨⟨item, mark⟩, items, rfl, rfl, -⟩ := List.map_eq_cons_iff.mp hitems
    have hfollowing := @ih fuel (i + 1) items' hitems' (by
      rw [List.length_cons] at hfuel
      omega)
    have hne : item ≠ .sequenceEnd := hitem.2.2
    unfold entries
    rw [List.append_assoc]
    rw [List.cons_append, go_bind go_peek]
    simp only [hne, ↓reduceIte]
    rw [List.cons_append] at hread
    rw [go_bind hread, go_bind hfollowing]
    rfl

theorem delivers_list (h : DeliversAll read is as) :
    Delivers (list read) (.sequenceStart :: (is ++ [.sequenceEnd])) as := by
  intro location d items rest jumps hitems
  obtain ⟨⟨item, mark⟩, items, rfl, hitem, hitems'⟩ := List.map_eq_cons_iff.mp hitems
  cases hitem
  apply go_node location (by simp)
  simp only [↓reduceIte]
  rw [go_bind go_fuel]
  apply go_entries h hitems'
  have hlength : items.length = is.length + 1 := by
    rw [← List.length_map (fun x : Item × Mark => x.1), hitems', List.length_append, List.length_singleton]
  have hle := length_le_of_deliversAll h
  rw [List.append_eq, List.length_append]
  omega

end Lists

section Records

variable {ρ : Type}

inductive Fills : List (Record.Field Location Reader ρ) → List (String × Json) → (ρ → ρ) → Prop where
  | nil : Fills [] [] id
  | present {field : Record.Field Location Reader ρ} {fields : List (Record.Field Location Reader ρ)}
    {j : Json} {ms : List (String × Json)} {f g : ρ → ρ} (hj : Writable j)
    (h : Delivers field.read (itemsOf j) f) (hs : Fills fields ms g) :
    Fills (field :: fields) ((field.key, j) :: ms) (g ∘ f)
  | absent {field : Record.Field Location Reader ρ} {fields : List (Record.Field Location Reader ρ)}
    {ms : List (String × Json)} {g : ρ → ρ} (h : field.presence ≠ .required)
    (hs : Fills fields ms g) : Fills (field :: fields) ms g

theorem length_le_memberItems (ms : List (String × Json)) : ms.length ≤ (ms.flatMap memberItems).length := by
  induction ms with
  | nil => exact Nat.le_refl _
  | cons m ms ih =>
    rw [List.flatMap_cons, List.length_append, memberItems, List.length_cons, List.length_cons]
    omega

variable {fields : List (Record.Field Location Reader ρ)} {ms : List (String × Json)} {g : ρ → ρ}

theorem find?_of_nodup {before : List (Record.Field Location Reader ρ)}
    {field : Record.Field Location Reader ρ}
    (h : ((before ++ field :: fields).map (·.key)).Nodup) :
    (before ++ field :: fields).find? (·.key == field.key) = some field := by
  rw [List.map_append, List.map_cons, List.nodup_append] at h
  rw [List.find?_append, List.find?_eq_none.mpr, Option.none_or, List.find?_cons_of_pos (by simp)]
  intro field' hfield' hkey
  rw [beq_iff_eq] at hkey
  exact h.2.2 _ (List.mem_map_of_mem hfield') _ List.mem_cons_self hkey

structure Accounted (before : List (Record.Field Location Reader ρ)) (p : Partial ρ) : Prop where
  seen : ∀ k ∈ p.seen, k ∈ before.map (·.key)
  required : ∀ field ∈ before, field.presence = .required → field.key ∈ p.seen

section Member

variable {before : List (Record.Field Location Reader ρ)} {field : Record.Field Location Reader ρ}
  {p : Partial ρ} (h : Accounted before p)

include h

theorem accounted_of_present (a : ρ) : Accounted (before ++ [field]) ⟨field.key :: p.seen, a⟩ where
  seen k hk := by
    rw [List.map_append, List.mem_append]
    rcases List.mem_cons.mp hk with rfl | hk
    . exact .inr (by simp)
    . exact .inl (h.seen k hk)
  required field' hfield' hrequired := by
    rcases List.mem_append.mp hfield' with hfield' | hfield'
    . exact List.mem_cons_of_mem _ (h.required field' hfield' hrequired)
    . rw [List.mem_singleton] at hfield'
      rw [hfield']
      exact List.mem_cons_self

theorem accounted_of_absent (hpresence : field.presence ≠ .required) :
    Accounted (before ++ [field]) p where
  seen k hk := by
    rw [List.map_append]
    exact List.mem_append_left _ (h.seen k hk)
  required field' hfield' hrequired := by
    rcases List.mem_append.mp hfield' with hfield' | hfield'
    . exact h.required field' hfield' hrequired
    . rw [List.mem_singleton] at hfield'
      rw [hfield'] at hrequired
      contradiction

theorem go_step {other : String → Location → Reader (ρ → ρ)} {location : Location} {d : Document}
    {is : List Item} {f : ρ → ρ} {items rest : Items} {jumps : Nat}
    (hnodup : ((before ++ field :: fields).map (·.key)).Nodup) (hread : Delivers field.read is f)
    (hitems : items.map (·.1) = is) :
    go (Partial.step other (before ++ field :: fields) p field.key location) d
        ⟨items ++ rest, jumps⟩ = .ok (⟨field.key :: p.seen, f p.value⟩, ⟨rest, jumps⟩) := by
  have hnew : p.seen.contains field.key = false := by
    rw [Bool.eq_false_iff]
    intro hcontains
    rw [List.contains_iff_mem] at hcontains
    rw [List.map_append, List.map_cons, List.nodup_append] at hnodup
    exact hnodup.2.2 _ (h.seen _ hcontains) _ List.mem_cons_self rfl
  unfold Partial.step
  rw [find?_of_nodup hnodup]
  simp only [hnew, Bool.false_eq_true, ↓reduceIte]
  rw [go_bind (hread location d items rest jumps hitems)]
  rfl

end Member

theorem go_members_cons {σ : Type} {step : σ → String → Location → Reader σ} {location : Location}
    {d : Document} {fuel : Nat} {s s' : σ} {key : String} {mark : Mark} {items : Items} {jumps : Nat}
    {p : Progress} (h : go (step s key (location ++ [.key key])) d ⟨items, jumps⟩ = .ok (s', p)) :
    go (members step location (fuel + 1) s) d ⟨(.scalar none key .plain, mark) :: items, jumps⟩ =
      go (members step location fuel s') d p := by
  have hkey := delivers_text "field identifier" key none .plain location d
    [(.scalar none key .plain, mark)] items jumps rfl
  rw [List.singleton_append] at hkey
  rw [members, go_bind go_peek]
  simp only [reduceCtorEq, ↓reduceIte]
  rw [go_bind hkey, go_bind h]

theorem go_members (h : Fills fields ms g) {before : List (Record.Field Location Reader ρ)}
    {other : String → Location → Reader (ρ → ρ)} {location : Location} {d : Document} {fuel : Nat}
    {items rest : Items} {jumps : Nat} {p : Partial ρ}
    (hnodup : ((before ++ fields).map (·.key)).Nodup) (hbefore : Accounted before p)
    (hitems : items.map (·.1) = ms.flatMap memberItems ++ [.mappingEnd]) (hfuel : ms.length < fuel) :
    ∃ seen, (∀ field ∈ before ++ fields, field.presence = .required → field.key ∈ seen) ∧
      go (members (Partial.step other (before ++ fields)) location fuel p) d ⟨items ++ rest, jumps⟩ =
        .ok (⟨seen, g p.value⟩, ⟨rest, jumps⟩) := by
  obtain ⟨fuel, rfl⟩ : ∃ n, fuel = n + 1 := ⟨fuel - 1, by omega⟩
  -- A field that was gone through counts as one of those before, whether it had a member or not.
  induction h generalizing before fuel items p with
  | nil =>
    obtain ⟨⟨item, mark⟩, items, rfl, hitem, hitems'⟩ := List.map_eq_cons_iff.mp hitems
    rw [List.map_eq_nil_iff] at hitems'
    subst hitems'
    cases hitem
    rw [List.append_nil]
    refine ⟨p.seen, hbefore.required, ?_⟩
    unfold members
    rw [List.cons_append, go_bind go_peek]
    rfl
  | @present field fields j ms f g hj hread hs ih =>
    obtain ⟨fuel, rfl⟩ : ∃ n, fuel = n + 1 := ⟨fuel - 1, by
      rw [List.length_cons] at hfuel
      omega⟩
    rw [List.flatMap_cons, memberItems, List.cons_append, List.cons_append] at hitems
    obtain ⟨⟨item, mark⟩, items, rfl, hitem, hitems'⟩ := List.map_eq_cons_iff.mp hitems
    cases hitem
    rw [List.append_assoc] at hitems'
    obtain ⟨value, items, rfl, hvalue, hitems'⟩ := List.map_eq_append_iff.mp hitems'
    rw [List.cons_append, List.append_assoc, go_members_cons (go_step hbefore hnodup hread hvalue)]
    rw [List.append_cons] at hnodup ⊢
    apply ih hnodup (accounted_of_present hbefore _) hitems'
    rw [List.length_cons] at hfuel
    omega
  | @absent field fields ms g hpresence hs ih =>
    rw [List.append_cons] at hnodup ⊢
    exact ih hnodup (accounted_of_absent hbefore hpresence) hitems fuel hfuel

theorem delivers_record (name : String) (start : ρ) (h : Fills fields ms g)
    (hnodup : (fields.map (·.key)).Nodup) :
    Delivers (record name fields start) (.mappingStart :: (ms.flatMap memberItems ++ [.mappingEnd])) (g start) := by
  intro location d items rest jumps hitems
  obtain ⟨⟨item, mark⟩, items, rfl, hitem, hitems'⟩ := List.map_eq_cons_iff.mp hitems
  cases hitem
  apply go_node location (by simp)
  simp only [↓reduceIte]
  rw [go_bind go_fuel]
  have hlength : ms.length ≤ (items ++ rest).length := by
    have hle := length_le_memberItems ms
    have hitemsLength : items.length = (ms.flatMap memberItems).length + 1 := by
      rw [← List.length_map (fun x : Item × Mark => x.1), hitems', List.length_append,
        List.length_singleton]
    rw [List.length_append]
    omega
  have hstart : Accounted ([] : List (Record.Field Location Reader ρ)) (Partial.start start) :=
    ⟨by simp [Partial.start], by simp⟩
  obtain ⟨seen, hseen, hread⟩ := @go_members ρ fields ms g h [] _ location d _ items rest jumps
    (Partial.start start) hnodup hstart hitems' (Nat.lt_succ_of_le hlength)
  have hfinish : fields.find? (fun field => field.presence = .required && !seen.contains field.key) =
      none := by
    rw [List.find?_eq_none]
    intro field hfield
    rw [Bool.and_eq_true, Bool.not_eq_true', decide_eq_true_eq, not_and, Bool.not_eq_false,
      List.contains_iff_mem]
    exact hseen field hfield
  refine (go_bind hread).trans ?_
  unfold Partial.finish
  simp only [hfinish]
  rfl

end Records

theorem exists_present {j : Json} (hj : Writable j) :
    ∃ item is, itemsOf j = item :: is ∧ Present item := by
  cases hj with
  | text s =>
    refine ⟨_, _, itemsOf_text s, ?_, by simp, by simp⟩
    unfold Text.shown
    cases hstyle : Text.style s with
    | plain =>
      obtain ⟨hempty, hnull⟩ := Text.ne_of_isAmbiguous (Text.of_style_plain hstyle).1
      simp [isAbsent, hempty, hnull]
    | singleQuoted => rfl
    | doubleQuoted => rfl
    | literal => rfl
  | flag b =>
    refine ⟨_, _, itemsOf_flag b, ?_, by simp, by simp⟩
    cases b <;> rfl
  | array => exact ⟨_, _, itemsOf_array _, rfl, by simp, by simp⟩
  | object => exact ⟨_, _, itemsOf_object _, rfl, by simp, by simp⟩

structure Restores (read : Location → Reader α) (j : Json) (a : α) : Prop where
  writable : Writable j
  delivers : Delivers read (itemsOf j) a

theorem restores_text (s : String) : Restores (textAs "a string") (.text s) s := by
  refine ⟨.text s, ?_⟩
  rw [itemsOf_text]
  exact delivers_text _ s none (Text.shown s)

theorem restores_flag (b : Bool) : Restores flag (.flag b) b := by
  refine ⟨.flag b, ?_⟩
  rw [itemsOf_flag]
  exact delivers_flag b

theorem delivers_some {read : Location → Reader α} {j : Json} {a : α} (h : Restores read j a) :
    Delivers (optional read) (itemsOf j) (some a) := by
  obtain ⟨item, is, hitems, hpresent⟩ := exists_present h.writable
  have hread := h.delivers
  rw [hitems] at hread ⊢
  exact delivers_optional hread hpresent

theorem restores_list {read : Location → Reader α} {write : α → Json} {as : List α}
    (h : ∀ a ∈ as, Restores read (write a) a) : Restores (list read) (.array (as.map write)) as := by
  have hall : DeliversAll read ((as.map write).flatMap itemsOf) as := by
    induction as with
    | nil => exact DeliversAll.nil
    | cons a as ih =>
      have ha := h a List.mem_cons_self
      obtain ⟨item, is, hitems, hpresent⟩ := exists_present ha.writable
      have hread := ha.delivers
      rw [List.map_cons, List.flatMap_cons, hitems]
      rw [hitems] at hread
      exact DeliversAll.cons hread hpresent (ih (fun a' ha' => h a' (List.mem_cons_of_mem a ha')))
  refine ⟨.array ?_, ?_⟩
  . intro j hj
    obtain ⟨a, ha, rfl⟩ := List.mem_map.mp hj
    exact (h a ha).writable
  . rw [itemsOf_array]
    exact delivers_list hall

section Members

variable {ρ : Type} {fields : List (Record.Field Location Reader ρ)} {ms : List (String × Json)}
  {g : ρ → ρ} {read : Location → Reader α} {j : Json} {a : α} {key : String}

theorem fills_required (set : α → ρ → ρ) (h : Restores read j a) (hs : Fills fields ms g) :
    Fills (.required key read set :: fields) ((key, j) :: ms) (g ∘ set a) :=
  @Fills.present ρ (.required key read set) fields j ms (set a) g h.writable
    (delivers_map set h.delivers) hs

theorem fills_defaulted (set : α → ρ → ρ) (h : Restores read j a) (hs : Fills fields ms g) :
    Fills (.defaulted key read set :: fields) ((key, j) :: ms) (g ∘ set a) :=
  @Fills.present ρ (.defaulted key read set) fields j ms (set a) g h.writable
    (delivers_map set h.delivers) hs

def fill (set : Option α → ρ → ρ) : Option α → ρ → ρ
  | none => id
  | some a => set (some a)

theorem fill_eq {set : Option α → ρ → ρ} {r : ρ} (o : Option α) (h : set none r = r) :
    fill set o r = set o r := by
  cases o with
  | none => exact h.symm
  | some a => rfl

theorem restores_record {name : String} {start r : ρ} (h : Fills fields ms g) (hr : g start = r)
    (hnodup : (fields.map (·.key)).Nodup) (hkeys : ∀ k ∈ fields.map (·.key), Key k.toList) :
    Restores (record name fields start) (.object ms) r := by
  subst hr
  have hmembers : ∀ m ∈ ms, m.1 ∈ fields.map (·.key) ∧ Writable m.2 := by
    clear hnodup hkeys
    induction h with
    | nil => simp
    | present hj h hs ih =>
      intro m hm
      rcases List.mem_cons.mp hm with rfl | hm
      . exact ⟨List.mem_cons_self, hj⟩
      . exact ⟨List.mem_cons_of_mem _ (ih m hm).1, (ih m hm).2⟩
    | absent h hs ih =>
      intro m hm
      exact ⟨List.mem_cons_of_mem _ (ih m hm).1, (ih m hm).2⟩
  refine ⟨.object (fun m hm => hkeys _ (hmembers m hm).1) (fun m hm => (hmembers m hm).2), ?_⟩
  rw [itemsOf_object]
  exact delivers_record name start h hnodup

end Members

end Reader

end ClusterRegistration.Yaml
