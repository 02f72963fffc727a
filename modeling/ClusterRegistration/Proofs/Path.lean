import ClusterRegistration.Path

namespace ClusterRegistration

namespace Path

def isStep (piece : List Char) : Bool :=
  !(piece = [] || piece = ['.'])

def steps (p : Path) : List (List Char) :=
  p.pieces.filter isStep

def simplified (p : Path) : Path :=
  ⟨String.ofList ((if p.isAbsolute then ['/'] else []) ++ ['/'].intercalate p.steps)⟩

def isDotted (p : Path) : Bool :=
  p.pieces.head? = some ['.']

section Pieces

variable {cs piece : List Char} {p q : Path}

theorem not_mem_of_mem_splitOn (h : piece ∈ cs.splitOn '/') : '/' ∉ piece := by
  induction cs generalizing piece with
  | nil =>
    rw [List.splitOn_nil, List.mem_singleton] at h
    rw [h]
    exact List.not_mem_nil
  | cons c cs ih =>
    rw [List.splitOn_cons_eq_if_modifyHead] at h
    split at h
    . rcases List.mem_cons.mp h with rfl | h
      . exact List.not_mem_nil
      . exact ih h
    . next hc =>
      cases hpieces : cs.splitOn '/' with
      | nil => exact absurd hpieces (List.splitOn_ne_nil _ _)
      | cons first rest =>
        rw [hpieces] at h ih
        rcases List.mem_cons.mp h with rfl | h
        . rw [List.mem_cons, not_or]
          exact ⟨fun hslash => hc (beq_iff_eq.mpr hslash.symm), ih List.mem_cons_self⟩
        . exact ih (List.mem_cons_of_mem first h)

theorem plain_of_mem_steps (h : piece ∈ p.steps) : piece ≠ [] ∧ '/' ∉ piece := by
  obtain ⟨hpiece, hstep⟩ := List.mem_filter.mp h
  simp only [isStep, Bool.not_eq_true', Bool.or_eq_false_iff, decide_eq_false_iff_not] at hstep
  exact ⟨hstep.1, not_mem_of_mem_splitOn hpiece⟩

theorem isAbsolute_iff : p.isAbsolute = true ↔ p.text.toList.head? = some '/' := by
  unfold isAbsolute
  rw [beq_iff_eq]

theorem isDotted_of_isAbsolute (h : p.isAbsolute = true) : p.isDotted = false := by
  obtain ⟨cs, hcs⟩ := List.head?_eq_some_iff.mp (isAbsolute_iff.mp h)
  unfold isDotted pieces
  rw [hcs, List.splitOn_cons_eq_if_modifyHead]
  rfl

end Pieces

section Simplified

variable {p q : Path}

theorem intercalate_cases {pieces : List (List Char)} (h : ∀ piece ∈ pieces, piece ≠ [] ∧ '/' ∉ piece) :
    pieces = [] ∧ ['/'].intercalate pieces = [] ∨
      pieces ≠ [] ∧ ∃ c cs, ['/'].intercalate pieces = c :: cs ∧ c ≠ '/' := by
  cases pieces with
  | nil => exact .inl ⟨rfl, List.intercalate_nil⟩
  | cons first rest =>
    obtain ⟨hne, hslash⟩ := h first List.mem_cons_self
    obtain ⟨c, cs, rfl⟩ := List.exists_cons_of_ne_nil hne
    have hc : c ≠ '/' := by
      rintro rfl
      exact hslash List.mem_cons_self
    refine .inr ⟨List.cons_ne_nil _ _, c, ?_⟩
    cases rest with
    | nil => exact ⟨cs, List.intercalate_singleton, hc⟩
    | cons next rest => exact ⟨_, List.intercalate_cons_cons, hc⟩

theorem intercalate_inj {pieces pieces' : List (List Char)} (h : ∀ piece ∈ pieces, piece ≠ [] ∧ '/' ∉ piece)
    (h' : ∀ piece ∈ pieces', piece ≠ [] ∧ '/' ∉ piece)
    (heq : ['/'].intercalate pieces = ['/'].intercalate pieces') : pieces = pieces' := by
  rcases intercalate_cases h with ⟨hnil, htext⟩ | ⟨hne, c, cs, htext, -⟩
  . rcases intercalate_cases h' with ⟨hnil', -⟩ | ⟨-, c', cs', htext', -⟩
    . rw [hnil, hnil']
    . rw [htext, htext'] at heq
      cases heq
  . rcases intercalate_cases h' with ⟨-, htext'⟩ | ⟨hne', -⟩
    . rw [htext, htext'] at heq
      cases heq
    . rw [← List.splitOn_intercalate '/' (fun piece hpiece => (h piece hpiece).2) hne, heq,
        List.splitOn_intercalate '/' (fun piece hpiece => (h' piece hpiece).2) hne']

theorem toList_simplified (p : Path) :
    p.simplified.text.toList = (if p.isAbsolute then ['/'] else []) ++ ['/'].intercalate p.steps := by
  unfold simplified
  rw [String.toList_ofList]

theorem isAbsolute_simplified (p : Path) : p.simplified.isAbsolute = p.isAbsolute := by
  rw [Bool.eq_iff_iff, isAbsolute_iff, toList_simplified]
  cases p.isAbsolute with
  | true => exact iff_of_true rfl rfl
  | false =>
    refine iff_of_false ?_ Bool.false_ne_true
    rcases intercalate_cases fun _ => plain_of_mem_steps (p := p) with ⟨-, htext⟩ | ⟨-, c, cs, htext, hc⟩
    . rw [htext]
      nofun
    . rw [htext]
      rintro ⟨⟩
      exact hc rfl

theorem simplified_eq_iff :
    p.simplified = q.simplified ↔ p.isAbsolute = q.isAbsolute ∧ p.steps = q.steps := by
  constructor
  . intro h
    have habsolute : p.isAbsolute = q.isAbsolute := by
      rw [← isAbsolute_simplified, h, isAbsolute_simplified]
    have htext : p.simplified.text.toList = q.simplified.text.toList := by rw [h]
    rw [toList_simplified, toList_simplified, habsolute] at htext
    exact ⟨habsolute, intercalate_inj (fun _ => plain_of_mem_steps) (fun _ => plain_of_mem_steps)
      (List.append_cancel_left htext)⟩
  . rintro ⟨habsolute, hsteps⟩
    unfold simplified
    rw [habsolute, hsteps]

end Simplified

section Components

variable {p q : Path}

def stepComponent (step : List Char) : Component :=
  if step = ['.', '.'] then .parent else .normal (String.ofList step)

def anchor? (p : Path) : Option Component :=
  if p.isAbsolute then some .root else if p.isDotted then some .current else none

theorem stepComponent_inj {step step' : List Char} (h : stepComponent step = stepComponent step') : step = step' := by
  unfold stepComponent at h
  split at h
  . next hstep =>
    split at h
    . next hstep' => rw [hstep, hstep']
    . cases h
  . split at h
    . cases h
    . exact String.ofList_inj.mp (Component.normal.inj h)

theorem component?_eq (piece : List Char) :
    component? piece = if isStep piece then some (stepComponent piece) else none := by
  unfold component? isStep stepComponent
  cases piece = [] || piece = ['.'] with
  | true => rfl
  | false =>
    simp only [Bool.false_eq_true, ↓reduceIte, Bool.not_false]
    split
    . rfl
    . rfl

theorem filterMap_component? (pieces : List (List Char)) :
    pieces.filterMap component? = (pieces.filter isStep).map stepComponent := by
  induction pieces with
  | nil => rfl
  | cons piece pieces ih =>
    have hcomponent := component?_eq piece
    cases hstep : isStep piece with
    | true =>
      rw [hstep] at hcomponent
      rw [List.filterMap_cons_some hcomponent, List.filter_cons_of_pos hstep, List.map_cons, ih]
    | false =>
      rw [hstep] at hcomponent
      rw [List.filterMap_cons_none hcomponent, List.filter_cons_of_neg (by simp [hstep]), ih]

theorem components_eq (p : Path) : p.components = p.anchor?.toList ++ p.steps.map stepComponent := by
  unfold components anchor? steps isDotted
  rw [filterMap_component?]
  split
  . rfl
  . simp only [decide_eq_true_eq]
    split
    . rfl
    . rfl

theorem anchor?_eq_iff : p.anchor? = q.anchor? ↔ p.isAbsolute = q.isAbsolute ∧ p.isDotted = q.isDotted := by
  have hp := isDotted_of_isAbsolute (p := p)
  have hq := isDotted_of_isAbsolute (p := q)
  unfold anchor?
  generalize p.isAbsolute = absolute, p.isDotted = dotted, q.isAbsolute = absolute', q.isDotted = dotted' at hp hq
  revert hp hq
  revert absolute dotted absolute' dotted'
  decide

theorem stepComponent_ne {anchor : Component} (h : anchor ∈ p.anchor?) (step : List Char) :
    stepComponent step ≠ anchor := by
  unfold anchor? at h
  unfold stepComponent
  split at h
  . cases h
    split <;> nofun
  . split at h
    . cases h
      split <;> nofun
    . cases h

theorem map_stepComponent_ne {anchor : Component} (h : anchor ∈ p.anchor?) (steps : List (List Char))
    (rest : List Component) : steps.map stepComponent ≠ anchor :: rest := by
  cases steps with
  | nil => nofun
  | cons step steps =>
    intro heq
    exact stepComponent_ne h step (List.cons.inj heq).1

theorem components_eq_iff : p.components = q.components ↔ p.anchor? = q.anchor? ∧ p.steps = q.steps := by
  rw [components_eq, components_eq]
  constructor
  . intro h
    have hsteps {steps steps' : List (List Char)} (h : steps.map stepComponent = steps'.map stepComponent) :
        steps = steps' := (List.map_inj_right fun _ _ => stepComponent_inj).mp h
    cases hp : p.anchor? with
    | none =>
      cases hq : q.anchor? with
      | none =>
        rw [hp, hq] at h
        exact ⟨rfl, hsteps h⟩
      | some anchor =>
        rw [hp, hq] at h
        exact absurd h (map_stepComponent_ne hq _ _)
    | some anchor =>
      cases hq : q.anchor? with
      | none =>
        rw [hp, hq] at h
        exact absurd h.symm (map_stepComponent_ne hp _ _)
      | some anchor' =>
        rw [hp, hq] at h
        obtain ⟨hanchor, h⟩ := List.cons.inj h
        exact ⟨congrArg some hanchor, hsteps h⟩
  . rintro ⟨hanchor, hsteps⟩
    rw [hanchor, hsteps]

theorem same_iff :
    p.same q = true ↔ p.simplified = q.simplified ∧ p.isDotted = q.isDotted := by
  unfold same
  rw [decide_eq_true_iff, components_eq_iff, anchor?_eq_iff, simplified_eq_iff, and_right_comm]

end Components

section Join

variable {directory p : Path}

theorem splitOn_append_slash (cs cs' : List Char) :
    (cs ++ '/' :: cs').splitOn '/' = cs.splitOn '/' ++ cs'.splitOn '/' := by
  simp only [List.splitOn_eq_splitOnP]
  exact List.splitOnP_append_cons cs cs' (beq_self_eq_true '/')

theorem exists_toList_join (h : p.isAbsolute = false) (hne : directory.text.toList ≠ []) :
    ∃ cs, (directory.join p).text.toList = cs ++ '/' :: p.text.toList ∧
      (directory.text.toList = cs ∨ directory.text.toList = cs ++ ['/']) := by
  unfold join
  rw [h, if_neg Bool.false_ne_true, List.getLast?_eq_some_getLast hne]
  split
  . next hnone => cases hnone
  . next hlast =>
    obtain ⟨cs, hcs⟩ : ∃ cs, directory.text.toList = cs ++ ['/'] := by
      refine ⟨directory.text.toList.dropLast, ?_⟩
      rw [← Option.some.inj hlast, List.dropLast_concat_getLast]
    refine ⟨cs, ?_, .inr hcs⟩
    rw [String.toList_append, hcs, List.append_assoc]
    rfl
  . refine ⟨directory.text.toList, ?_, .inl rfl⟩
    rw [String.toList_append, String.toList_append, List.append_assoc]
    rfl

theorem steps_join (h : p.isAbsolute = false) (hne : directory.text.toList ≠ []) :
    (directory.join p).steps = directory.steps ++ p.steps := by
  obtain ⟨cs, htext, hcs⟩ := exists_toList_join h hne
  unfold steps pieces
  rw [htext, splitOn_append_slash, List.filter_append]
  rcases hcs with hcs | hcs
  . rw [hcs]
  . rw [hcs, splitOn_append_slash, List.filter_append, List.splitOn_nil]
    exact congrArg (· ++ _) (List.append_nil _).symm

theorem anchor?_join (h : p.isAbsolute = false) (hne : directory.text.toList ≠ []) :
    (directory.join p).anchor? = directory.anchor? := by
  obtain ⟨cs, htext, hcs⟩ := exists_toList_join h hne
  obtain ⟨first, rest, hpieces⟩ := List.exists_cons_of_ne_nil (List.splitOn_ne_nil '/' cs)
  rw [anchor?_eq_iff]
  unfold isAbsolute isDotted pieces
  rw [htext, splitOn_append_slash, hpieces]
  rcases hcs with hcs | hcs
  . rw [hcs, hpieces]
    rw [hcs] at hne
    obtain ⟨c, cs, rfl⟩ := List.exists_cons_of_ne_nil hne
    exact ⟨rfl, rfl⟩
  . rw [hcs, splitOn_append_slash, hpieces]
    cases cs with
    | nil => exact ⟨rfl, rfl⟩
    | cons c cs => exact ⟨rfl, rfl⟩

theorem components_join (h : p.anchor? = none) :
    (directory.join p).components = directory.components ++ p.components := by
  have hp : p.isAbsolute = false := by
    unfold anchor? at h
    split at h
    . cases h
    . next hrelative => exact Bool.eq_false_iff.mpr hrelative
  by_cases hdirectory : directory = ⟨""⟩
  . subst hdirectory
    unfold join
    rw [hp]
    rfl
  . have hne : directory.text.toList ≠ [] := by
      intro hnil
      obtain ⟨text⟩ := directory
      exact hdirectory (congrArg Path.mk (String.toList_eq_nil_iff.mp hnil))
    rw [components_eq, components_eq directory, components_eq p, anchor?_join hp hne, steps_join hp hne, h,
      List.map_append, List.append_assoc]
    rfl

end Join

end Path

end ClusterRegistration
