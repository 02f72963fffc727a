import ClusterRegistration.Proofs.Json.Reader
import ClusterRegistration.Proofs.Json.Scan

namespace ClusterRegistration.Json.Reader

variable {σ : Type}

namespace Advances

theorem word (s : String) : Advances (Reader.word s) :=
  .lexeme (length_of_scanWord _)

theorem text : Advances (Reader.lexeme scanText) := by
  apply lexeme
  intro bs s rest h
  exact length_of_skipText _ _ _ _ (skipText_of_scanText h)

theorem numeral (first : UInt8) : Advances (Reader.numeral first) := by
  unfold Reader.numeral
  split
  . exact advance.bind (fun _ => .lexeme (fun _ _ _ h => Numeral.length_of_skip _ _ _ (Numeral.skip_of_scan h)))
  . exact .lexeme (fun _ _ _ h => Numeral.length_of_skip _ _ _ (Numeral.skip_of_scan h))

theorem head (first : UInt8) : Advances (Reader.head first) := by
  unfold Reader.head
  split
  . exact advance.bind (fun _ => (word _).bind (fun _ => .pure _))
  . split
    . exact advance.bind (fun _ => (word _).bind (fun _ => .pure _))
    . split
      . exact advance.bind (fun _ => (word _).bind (fun _ => .pure _))
      . split
        . exact (numeral _).bind (fun _ => .pure _)
        . split
          . exact advance.bind (fun _ => text.bind (fun _ => .pure _))
          . split
            . exact .pure _
            . split
              . exact .pure _
              . exact .fail _

theorem moreItems (first : Bool) : Advances (Reader.moreItems first) := by
  unfold Reader.moreItems
  refine peek?.bind (fun o => ?_)
  cases o with
  | none => exact .fail _
  | some b =>
    dsimp only
    split
    . exact .pure _
    . split
      . exact .pure _
      . split
        . refine advance.bind (fun _ => peek?.bind (fun o => ?_))
          cases o with
          | none => exact .fail _
          | some b =>
            dsimp only
            split
            . exact .fail _
            . exact .pure _
        . exact .fail _

theorem moreMembers (first : Bool) : Advances (Reader.moreMembers first) := by
  unfold Reader.moreMembers
  refine peek?.bind (fun o => ?_)
  cases o with
  | none => exact .fail _
  | some b =>
    dsimp only
    split
    . exact .pure _
    . split
      . split
        . exact .pure _
        . exact .fail _
      . split
        . refine advance.bind (fun _ => peek?.bind (fun o => ?_))
          cases o with
          | none => exact .fail _
          | some b =>
            dsimp only
            split
            . exact .pure _
            . split
              . exact .fail _
              . exact .fail _
        . exact .fail _

theorem colon : Advances Reader.colon := by
  unfold Reader.colon
  refine peek?.bind (fun o => ?_)
  cases o with
  | none => exact .fail _
  | some b =>
    dsimp only
    split
    . exact advance
    . exact .fail _

theorem items {step : σ → Reader σ} (hstep : ∀ s, Advances (step s)) (fuel : Nat) (first : Bool)
    (s : σ) : Advances (Reader.items step fuel first s) := by
  induction fuel generalizing first s with
  | zero => exact .fail _
  | succ fuel ih =>
    unfold Reader.items
    refine (moreItems first).bind (fun more => ?_)
    cases more with
    | false => exact .pure _
    | true => exact (hstep s).bind (fun s' => ih false s')

theorem members {step : σ → String → Reader σ} (hstep : ∀ s key, Advances (step s key)) (fuel : Nat)
    (first : Bool) (s : σ) : Advances (Reader.members step fuel first s) := by
  induction fuel generalizing first s with
  | zero => exact .fail _
  | succ fuel ih =>
    unfold Reader.members
    refine (moreMembers first).bind (fun more => ?_)
    cases more with
    | false => exact .pure _
    | true =>
      exact advance.bind (fun _ => text.bind (fun key => colon.bind (fun _ =>
        (hstep s key).bind (fun s' => ih false s'))))

theorem fuel : Advances Reader.fuel := by
  intro c a c' h
  cases h
  exact .refl c

theorem listWith {step : σ → Reader σ} (hstep : ∀ s, Advances (step s)) (s : σ) :
    Advances (Reader.listWith step s) :=
  (nested (advance.bind (fun _ => fuel.bind (fun _ => items hstep _ _ _)))).bind
    (fun _ => advance.bind (fun _ => .pure _))

theorem objectWith {step : σ → String → Reader σ} (hstep : ∀ s key, Advances (step s key)) (s : σ) :
    Advances (Reader.objectWith step s) :=
  (nested (advance.bind (fun _ => fuel.bind (fun _ => members hstep _ _ _)))).bind
    (fun _ => advance.bind (fun _ => .pure _))

end Advances

def anotherItem (n : Nat) (js : List Json) : Reader (List Json) := do
  return (← valueWith n) :: js

def anotherMember (n : Nat) (ms : List (String × Json)) (key : String) :
    Reader (List (String × Json)) := do
  return (key, ← valueWith n) :: ms

theorem valueWith_succ (n : Nat) : valueWith (n + 1) = (do
    match ← peek? with
    | none => fail .eofInValue
    | some b =>
      if b == 0x5B then
        let js ← listWith (anotherItem n) []
        pure (.array js.reverse)
      else if b == 0x7B then
        let ms ← objectWith (anotherMember n) []
        pure (.object ms.reverse)
      else
        head b) :=
  rfl

theorem anotherItem_of_ok {n : Nat} {js : List Json} {c c' : Cursor} {j : Json}
    (h : valueWith n c = .ok (j, c')) : anotherItem n js c = .ok (j :: js, c') := by
  show (valueWith n >>= fun j => pure (j :: js)) c = _
  rw [bind_of_ok h]
  rfl

theorem anotherMember_of_ok {n : Nat} {ms : List (String × Json)} {key : String} {c c' : Cursor}
    {j : Json} (h : valueWith n c = .ok (j, c')) :
    anotherMember n ms key c = .ok ((key, j) :: ms, c') := by
  show (valueWith n >>= fun j => pure ((key, j) :: ms)) c = _
  rw [bind_of_ok h]
  rfl

theorem Advances.valueWith (n : Nat) : Advances (Reader.valueWith n) := by
  induction n with
  | zero => exact .fail _
  | succ n ih =>
    unfold Reader.valueWith
    refine peek?.bind (fun o => ?_)
    cases o with
    | none => exact .fail _
    | some b =>
      dsimp only
      split
      . exact (listWith (fun js => ih.bind (fun _ => .pure _)) _).bind (fun _ => .pure _)
      . split
        . exact (objectWith (fun ms key => ih.bind (fun _ => .pure _)) _).bind (fun _ => .pure _)
        . exact head b

inductive Stands (n : Nat) (c : Cursor) : Json → Cursor → Prop where
  | null {c₁ c' : Cursor} (hfirst : peek? c = .ok (some 0x6E, c₁))
    (h : word "ull" c₁.next = .ok ((), c')) : Stands n c .null c'
  | yes {c₁ c' : Cursor} (hfirst : peek? c = .ok (some 0x74, c₁))
    (h : word "rue" c₁.next = .ok ((), c')) : Stands n c (.flag true) c'
  | no {c₁ c' : Cursor} (hfirst : peek? c = .ok (some 0x66, c₁))
    (h : word "alse" c₁.next = .ok ((), c')) : Stands n c (.flag false) c'
  | number {c₁ c' : Cursor} {b : UInt8} {x : Number} (hfirst : peek? c = .ok (some b, c₁))
    (hb : startsNumeral b = true) (h : numeral b c₁ = .ok (x, c')) : Stands n c (.number x) c'
  | text {c₁ c' : Cursor} {s : String} (hfirst : peek? c = .ok (some 0x22, c₁))
    (h : lexeme scanText c₁.next = .ok (s, c')) : Stands n c (.text s) c'
  | array {c₁ c' : Cursor} {js : List Json} (hfirst : peek? c = .ok (some 0x5B, c₁))
    (h : listWith (anotherItem n) [] c₁ = .ok (js.reverse, c')) : Stands n c (.array js) c'
  | object {c₁ c' : Cursor} {ms : List (String × Json)} (hfirst : peek? c = .ok (some 0x7B, c₁))
    (h : objectWith (anotherMember n) [] c₁ = .ok (ms.reverse, c')) : Stands n c (.object ms) c'

variable {c c' : Cursor} {j : Json}

theorem moreItems_eq_ok {first more : Bool} (h : moreItems first c = .ok (more, c')) :
    (more = false ∧ peek? c = .ok (some 0x5D, c')) ∨
    (more = true ∧ first = true ∧ ∃ b, b ≠ 0x5D ∧ peek? c = .ok (some b, c')) ∨
    (more = true ∧ first = false ∧ ∃ c₁ b, b ≠ 0x5D ∧ peek? c = .ok (some 0x2C, c₁) ∧
      peek? c₁.next = .ok (some b, c')) := by
  unfold moreItems at h
  obtain ⟨o, c₁, hpeek, h⟩ := bind_eq_ok h
  cases o with
  | none => cases h
  | some b =>
    dsimp only at h
    split at h
    . next hb =>
      cases h
      exact .inl ⟨rfl, beq_iff_eq.mp hb ▸ hpeek⟩
    . next hb =>
      rw [beq_iff_eq] at hb
      split at h
      . next hfirst =>
        cases h
        exact .inr (.inl ⟨rfl, hfirst, b, hb, hpeek⟩)
      . next hfirst =>
        split at h
        . next hcomma =>
          rw [bind_of_ok (advance_eq _)] at h
          obtain ⟨o, c₂, hpeek', h⟩ := bind_eq_ok h
          cases o with
          | none => cases h
          | some b' =>
            dsimp only at h
            split at h
            . cases h
            . next hb' =>
              cases h
              rw [beq_iff_eq] at hcomma hb'
              exact .inr (.inr ⟨rfl, Bool.not_eq_true _ ▸ hfirst, c₁, b', hb', hcomma ▸ hpeek, hpeek'⟩)
        . cases h

theorem moreMembers_eq_ok {first more : Bool} (h : moreMembers first c = .ok (more, c')) :
    (more = false ∧ peek? c = .ok (some 0x7D, c')) ∨
    (more = true ∧ first = true ∧ peek? c = .ok (some 0x22, c')) ∨
    (more = true ∧ first = false ∧ ∃ c₁, peek? c = .ok (some 0x2C, c₁) ∧
      peek? c₁.next = .ok (some 0x22, c')) := by
  unfold moreMembers at h
  obtain ⟨o, c₁, hpeek, h⟩ := bind_eq_ok h
  cases o with
  | none => cases h
  | some b =>
    dsimp only at h
    split at h
    . next hb =>
      cases h
      exact .inl ⟨rfl, beq_iff_eq.mp hb ▸ hpeek⟩
    . split at h
      . next hfirst =>
        split at h
        . next hquote =>
          cases h
          exact .inr (.inl ⟨rfl, hfirst, beq_iff_eq.mp hquote ▸ hpeek⟩)
        . cases h
      . next hfirst =>
        split at h
        . next hcomma =>
          rw [bind_of_ok (advance_eq _)] at h
          obtain ⟨o, c₂, hpeek', h⟩ := bind_eq_ok h
          cases o with
          | none => cases h
          | some b' =>
            dsimp only at h
            split at h
            . next hquote =>
              cases h
              exact .inr (.inr ⟨rfl, Bool.not_eq_true _ ▸ hfirst, c₁, beq_iff_eq.mp hcomma ▸ hpeek,
                beq_iff_eq.mp hquote ▸ hpeek'⟩)
            . split at h
              . cases h
              . cases h
        . cases h

theorem peek?_of_noItems {first : Bool} (h : moreItems first c = .ok (false, c')) :
    peek? c = .ok (some 0x5D, c') := by
  rcases moreItems_eq_ok h with ⟨-, hpeek⟩ | ⟨hmore, -⟩ | ⟨hmore, -⟩
  . exact hpeek
  . cases hmore
  . cases hmore

theorem peek?_of_noMembers {first : Bool} (h : moreMembers first c = .ok (false, c')) :
    peek? c = .ok (some 0x7D, c') := by
  rcases moreMembers_eq_ok h with ⟨-, hpeek⟩ | ⟨hmore, -⟩ | ⟨hmore, -⟩
  . exact hpeek
  . cases hmore
  . cases hmore

theorem peek?_of_firstMember (h : moreMembers true c = .ok (true, c')) :
    peek? c = .ok (some 0x22, c') := by
  rcases moreMembers_eq_ok h with ⟨hmore, -⟩ | ⟨-, -, hpeek⟩ | ⟨-, hfirst, -⟩
  . cases hmore
  . exact hpeek
  . cases hfirst

theorem peek?_of_nextMember (h : moreMembers false c = .ok (true, c')) :
    ∃ c₁, peek? c = .ok (some 0x2C, c₁) := by
  rcases moreMembers_eq_ok h with ⟨hmore, -⟩ | ⟨-, hfirst, -⟩ | ⟨-, -, c₁, hpeek, -⟩
  . cases hmore
  . cases hfirst
  . exact ⟨c₁, hpeek⟩

theorem listWith_eq_ok {n : Nat} {js : List Json}
    (h : listWith (anotherItem n) [] c = .ok (js, c')) :
    ¬ c.depth ≤ 1 ∧ ∃ fuel c₁, fuel = c.enter.next.rest.length + 1 ∧
      items (anotherItem n) fuel true [] c.enter.next = .ok (js, c₁) ∧
      c' = (c₁.leave c.depth).next := by
  obtain ⟨js₁, c₂, hnested, h⟩ := bind_eq_ok h
  obtain ⟨hdepth, c₃, hitems, rfl⟩ := nested_eq_ok hnested
  rw [bind_of_ok (advance_eq _)] at h hitems
  rw [bind_of_ok (fuel_eq _)] at hitems
  cases h
  exact ⟨hdepth, _, c₃, rfl, hitems, rfl⟩

theorem objectWith_eq_ok {n : Nat} {ms : List (String × Json)}
    (h : objectWith (anotherMember n) [] c = .ok (ms, c')) :
    ¬ c.depth ≤ 1 ∧ ∃ fuel c₁, fuel = c.enter.next.rest.length + 1 ∧
      members (anotherMember n) fuel true [] c.enter.next = .ok (ms, c₁) ∧
      c' = (c₁.leave c.depth).next := by
  obtain ⟨ms₁, c₂, hnested, h⟩ := bind_eq_ok h
  obtain ⟨hdepth, c₃, hmembers, rfl⟩ := nested_eq_ok hnested
  rw [bind_of_ok (advance_eq _)] at h hmembers
  rw [bind_of_ok (fuel_eq _)] at hmembers
  cases h
  exact ⟨hdepth, _, c₃, rfl, hmembers, rfl⟩

theorem items_eq_ok {n fuel : Nat} {first : Bool} {js₀ js₁ : List Json}
    (h : items (anotherItem n) fuel first js₀ c = .ok (js₁, c')) :
    ∃ fuel' more c₁, fuel = fuel' + 1 ∧ moreItems first c = .ok (more, c₁) ∧
      ((more = false ∧ js₁ = js₀ ∧ c' = c₁) ∨
      (more = true ∧ ∃ j c₂, valueWith n c₁ = .ok (j, c₂) ∧
        items (anotherItem n) fuel' false (j :: js₀) c₂ = .ok (js₁, c'))) := by
  cases fuel with
  | zero => cases h
  | succ fuel =>
    unfold items at h
    obtain ⟨more, c₁, hmore, h⟩ := bind_eq_ok h
    refine ⟨fuel, more, c₁, rfl, hmore, ?_⟩
    cases more with
    | false =>
      cases h
      exact .inl ⟨rfl, rfl, rfl⟩
    | true =>
      obtain ⟨js₂, c₂, hitem, h⟩ := bind_eq_ok h
      obtain ⟨j, c₃, hvalue, hpure⟩ := bind_eq_ok hitem
      cases hpure
      exact .inr ⟨rfl, j, c₂, hvalue, h⟩

theorem exists_of_items {n fuel : Nat} {first : Bool} {js₀ js₁ : List Json}
    (h : items (anotherItem n) fuel first js₀ c = .ok (js₁, c')) :
    ∃ js : List Json, js₁ = js.reverse ++ js₀ := by
  induction fuel generalizing first js₀ c with
  | zero => cases h
  | succ fuel ih =>
    obtain ⟨_, more, c₁, ⟨⟩, -, ⟨-, rfl, -⟩ | ⟨-, j, c₂, -, h⟩⟩ := items_eq_ok h
    . exact ⟨[], rfl⟩
    . obtain ⟨js, rfl⟩ := ih h
      exact ⟨j :: js, by rw [List.reverse_cons, List.append_assoc, List.singleton_append]⟩

theorem exists_cons_of_items {n fuel : Nat} {first : Bool} {js js₀ : List Json}
    (h : items (anotherItem n) fuel first (j :: js₀) c = .ok (js.reverse ++ js₀, c')) :
    ∃ js', js = j :: js' ∧ js.reverse ++ js₀ = js'.reverse ++ j :: js₀ := by
  obtain ⟨js', hjs⟩ := exists_of_items h
  refine ⟨js', ?_, hjs⟩
  rw [← List.reverse_inj, ← List.append_cancel_right_eq _ js₀ _, hjs]
  rw [List.reverse_cons, List.append_assoc, List.singleton_append]

theorem items_of_end {n : Nat} (first : Bool) (js : List Json)
    (h : peek? c = .ok (some 0x5D, c')) : items (anotherItem n) 1 first js c = .ok (js, c') := by
  have hmore : moreItems first c = .ok (false, c') := by
    unfold moreItems
    rw [bind_of_ok h]
    rfl
  unfold items
  rw [bind_of_ok hmore]
  rfl

theorem members_eq_ok {n fuel : Nat} {first : Bool} {ms₀ ms₁ : List (String × Json)}
    (h : members (anotherMember n) fuel first ms₀ c = .ok (ms₁, c')) :
    ∃ fuel' more c₁, fuel = fuel' + 1 ∧ moreMembers first c = .ok (more, c₁) ∧
      ((more = false ∧ ms₁ = ms₀ ∧ c' = c₁) ∨
      (more = true ∧ ∃ key c₂ c₃ j c₄, lexeme scanText c₁.next = .ok (key, c₂) ∧
        colon c₂ = .ok ((), c₃) ∧ valueWith n c₃ = .ok (j, c₄) ∧
        members (anotherMember n) fuel' false ((key, j) :: ms₀) c₄ = .ok (ms₁, c'))) := by
  cases fuel with
  | zero => cases h
  | succ fuel =>
    unfold members at h
    obtain ⟨more, c₁, hmore, h⟩ := bind_eq_ok h
    refine ⟨fuel, more, c₁, rfl, hmore, ?_⟩
    cases more with
    | false =>
      cases h
      exact .inl ⟨rfl, rfl, rfl⟩
    | true =>
      have h : (advance >>= fun _ => lexeme scanText >>= fun key => colon >>= fun _ =>
        anotherMember n ms₀ key >>= fun ms => members (anotherMember n) fuel false ms) c₁ =
          .ok (ms₁, c') := h
      rw [bind_of_ok (advance_eq _)] at h
      obtain ⟨key, c₂, hkey, h⟩ := bind_eq_ok h
      obtain ⟨⟨⟩, c₃, hcolon, h⟩ := bind_eq_ok h
      obtain ⟨ms₂, c₄, hmember, h⟩ := bind_eq_ok h
      obtain ⟨j, c₅, hvalue, hpure⟩ := bind_eq_ok hmember
      cases hpure
      exact .inr ⟨rfl, key, c₂, c₃, j, c₄, hkey, hcolon, hvalue, h⟩

theorem exists_of_members {n fuel : Nat} {first : Bool} {ms₀ ms₁ : List (String × Json)}
    (h : members (anotherMember n) fuel first ms₀ c = .ok (ms₁, c')) :
    ∃ ms : List (String × Json), ms₁ = ms.reverse ++ ms₀ := by
  induction fuel generalizing first ms₀ c with
  | zero => cases h
  | succ fuel ih =>
    obtain ⟨_, more, c₁, ⟨⟩, -, ⟨-, rfl, -⟩ | ⟨-, key, c₂, c₃, j, c₄, -, -, -, h⟩⟩ := members_eq_ok h
    . exact ⟨[], rfl⟩
    . obtain ⟨ms, rfl⟩ := ih h
      exact ⟨(key, j) :: ms, by rw [List.reverse_cons, List.append_assoc, List.singleton_append]⟩

theorem word_eq_ok {s : String} {j j' : Json}
    (h : (do advance; word s; pure j : Reader Json) c = .ok (j', c')) :
    j = j' ∧ word s c.next = .ok ((), c') := by
  rw [bind_of_ok (advance_eq c)] at h
  obtain ⟨⟨⟩, c₁, hword, h⟩ := bind_eq_ok h
  cases h
  exact ⟨rfl, hword⟩

theorem stands_of_head {n : Nat} {b : UInt8} {c₁ : Cursor} (hfirst : peek? c = .ok (some b, c₁))
    (hlist : (b == 0x5B) = false) (hobject : (b == 0x7B) = false) (h : head b c₁ = .ok (j, c')) :
    Stands n c j c' := by
  unfold head at h
  split at h
  . next hb =>
    obtain ⟨rfl, hword⟩ := word_eq_ok h
    exact .null (beq_iff_eq.mp hb ▸ hfirst) hword
  . split at h
    . next hb =>
      obtain ⟨rfl, hword⟩ := word_eq_ok h
      exact .yes (beq_iff_eq.mp hb ▸ hfirst) hword
    . split at h
      . next hb =>
        obtain ⟨rfl, hword⟩ := word_eq_ok h
        exact .no (beq_iff_eq.mp hb ▸ hfirst) hword
      . split at h
        . next hb =>
          obtain ⟨x, c₂, hnumeral, h⟩ := bind_eq_ok h
          cases h
          exact .number hfirst hb hnumeral
        . split at h
          . next hb =>
            rw [bind_of_ok (advance_eq c₁)] at h
            obtain ⟨s, c₂, htext, h⟩ := bind_eq_ok h
            cases h
            exact .text (beq_iff_eq.mp hb ▸ hfirst) htext
          . rw [hlist, hobject] at h
            cases h

theorem stands_of_valueWith {n : Nat} (h : valueWith (n + 1) c = .ok (j, c')) : Stands n c j c' := by
  rw [valueWith_succ] at h
  obtain ⟨o, c₁, hfirst, h⟩ := bind_eq_ok h
  cases o with
  | none => cases h
  | some b =>
    dsimp only at h
    split at h
    . next hb =>
      obtain ⟨js, c₂, hlist, h⟩ := bind_eq_ok h
      rw [beq_iff_eq] at hb
      subst hb
      cases h
      exact .array hfirst (by rw [List.reverse_reverse]; exact hlist)
    . next hlist =>
      split at h
      . next hb =>
        obtain ⟨ms, c₂, hobject, h⟩ := bind_eq_ok h
        rw [beq_iff_eq] at hb
        subst hb
        cases h
        exact .object hfirst (by rw [List.reverse_reverse]; exact hobject)
      . next hobject =>
        exact stands_of_head hfirst (Bool.not_eq_true _ ▸ hlist) (Bool.not_eq_true _ ▸ hobject) h

theorem startsNumeral_ne {b b' : UInt8} (h : startsNumeral b = true) (h' : startsNumeral b' = false) :
    (b == b') = false := by
  rw [beq_eq_false_iff_ne]
  rintro rfl
  rw [h] at h'
  cases h'

theorem valueWith_of_first {c₁ : Cursor} {o : Option UInt8} (n : Nat) (h : peek? c = .ok (o, c₁)) :
    valueWith n c₁ = valueWith n c := by
  cases n with
  | zero => rfl
  | succ n =>
    rw [valueWith_succ, bind_of_ok h, bind_of_ok (peek?_of_first h)]

end ClusterRegistration.Json.Reader
