import ClusterRegistration.Proofs.Json.Value

/-!
This module contains the proof that values that can be read can be skipped, and end at the same place.
Skipping does not count how deep it is.
-/

namespace ClusterRegistration.Json.Reader

variable {α : Type} {c c₁ c' : Cursor} {j : Json} {n : Nat}

theorem peek?_leave {o : Option UInt8} (h : peek? c = .ok (o, c₁)) (d : Nat) :
    peek? (c.leave d) = .ok (o, c₁.leave d) := by
  rw [peek?_eq] at h
  obtain ⟨rfl, rfl⟩ := Prod.mk.inj (Except.ok.inj h)
  rfl

theorem lexeme_leave {β : Type} {scan : List UInt8 → Except Malformation (α × List UInt8)}
    {skip : List UInt8 → Except Malformation (β × List UInt8)} {a : α} {b : β}
    (hskip : ∀ bs rest, scan bs = .ok (a, rest) → skip bs = .ok (b, rest))
    (h : lexeme scan c = .ok (a, c')) (d : Nat) : lexeme skip (c.leave d) = .ok (b, c'.leave d) := by
  unfold lexeme at h ⊢
  split at h
  . next hscan =>
    cases h
    have hrest : skip (c.leave d).rest = _ := hskip _ _ hscan
    rw [hrest]
    rfl
  . cases h

theorem word_leave {s : String} (h : word s c = .ok ((), c')) (d : Nat) :
    word s (c.leave d) = .ok ((), c'.leave d) :=
  lexeme_leave (fun _ _ h => h) h d

theorem skipText_leave {s : String} (h : lexeme scanText c = .ok (s, c')) (d : Nat) :
    lexeme (fun bs => skipText (bs.length + 1) bs) (c.leave d) = .ok ((), c'.leave d) :=
  lexeme_leave (fun _ _ h => skipText_of_scanText h) h d

theorem colon_leave (h : colon c = .ok ((), c')) (d : Nat) :
    colon (c.leave d) = .ok ((), c'.leave d) := by
  unfold colon at h ⊢
  obtain ⟨o, c₁, hpeek, h⟩ := bind_eq_ok h
  rw [bind_of_ok (peek?_leave hpeek d)]
  cases o with
  | none => cases h
  | some b =>
    dsimp only at h ⊢
    split at h
    . next hb =>
      rw [if_pos hb]
      cases h
      rfl
    . cases h

theorem skipWith_of_first {o : Option UInt8} (m : Nat) (h : peek? c = .ok (o, c₁)) :
    skipWith m c₁ = skipWith m c := by
  cases m with
  | zero => rfl
  | succ m =>
    unfold skipWith
    rw [bind_of_ok h, bind_of_ok (peek?_of_first h)]

def skipRest (m : Nat) : Reader Unit := do
  match ← peek? with
  | none => fail .eofInList
  | some b =>
    if b == 0x2C then do
      advance
      skipItems m
    else if b == 0x5D then advance
    else fail .expectedListEnd

theorem skipItems_succ (m : Nat) (c : Cursor) :
    skipItems (m + 1) c = (skipWith m >>= fun _ => skipRest m) c :=
  rfl

def skipOthers (m : Nat) : Reader Unit := do
  match ← peek? with
  | none => fail .eofInObject
  | some b =>
    if b == 0x2C then do
      advance
      skipMembers m
    else if b == 0x7D then advance
    else fail .expectedObjectEnd

theorem skipWith_of_bracket (m : Nat) (h : peek? c = .ok (some 0x5B, c₁)) :
    skipWith (m + 1) c = (do
      match ← peek? with
      | none => fail .eofInList
      | some b => if b == 0x5D then advance else skipItems m : Reader Unit) c₁.next := by
  unfold skipWith
  rw [bind_of_ok h]
  rfl

theorem skipWith_of_brace (m : Nat) (h : peek? c = .ok (some 0x7B, c₁)) :
    skipWith (m + 1) c = (do
      match ← peek? with
      | none => fail .eofInObject
      | some b => if b == 0x7D then advance else skipMembers m : Reader Unit) c₁.next := by
  unfold skipWith
  rw [bind_of_ok h]
  rfl

def Skips (n : Nat) : Prop :=
  ∀ c j c', valueWith n c = .ok (j, c') → ∀ d m, 2 * c.rest.length < m →
    skipWith m (c.leave d) = .ok ((), c'.leave d)

theorem skipRest_of_items (hn : Skips n) {fuel : Nat} {js₀ js₁ : List Json}
    (h : items (anotherItem n) fuel false js₀ c = .ok (js₁, c')) (d m : Nat)
    (hm : 2 * c.rest.length < m + 1) :
    skipRest m (c.leave d) = .ok ((), c'.next.leave d) := by
  -- An item takes two steps, for its value and for what follows it, and at least one byte.
  induction fuel generalizing c js₀ m with
  | zero => cases h
  | succ fuel ih =>
    obtain ⟨_, more, c₁, ⟨⟩, hmore, h⟩ := items_eq_ok h
    unfold skipRest
    rcases moreItems_eq_ok hmore with ⟨rfl, hpeek⟩ | ⟨-, hfirst, -⟩ | ⟨rfl, -, c₂, b, -, hpeek, hpeek'⟩
    . rcases h with ⟨-, -, rfl⟩ | ⟨hmore, -⟩
      . rw [bind_of_ok (peek?_leave hpeek d)]
        rfl
      . cases hmore
    . cases hfirst
    . rcases h with ⟨hmore, -⟩ | ⟨-, j, c₃, hvalue, h⟩
      . cases hmore
      . have hnext := length_next_of_first hpeek
        have hlength := (Advances.peek? _ _ _ hpeek).length
        have hlength' := (Advances.peek? _ _ _ hpeek').length
        have hlength'' := (Advances.valueWith n _ _ _ hvalue).length
        obtain ⟨m, rfl⟩ : ∃ m', m = m' + 1 := ⟨m - 1, by omega⟩
        have hskip := hn _ _ _ hvalue d m (by omega)
        rw [skipWith_of_first m (peek?_leave hpeek' d)] at hskip
        rw [bind_of_ok (peek?_leave hpeek d)]
        show skipItems (m + 1) (c₂.next.leave d) = _
        rw [skipItems_succ, bind_of_ok hskip]
        exact ih h m (by omega)

theorem skipMembers_succ (m : Nat) (c : Cursor) (h : peek? c = .ok (some 0x22, c₁)) :
    skipMembers (m + 1) c = (lexeme (fun bs => skipText (bs.length + 1) bs) >>= fun _ =>
      colon >>= fun _ => skipWith m >>= fun _ => skipOthers m) c₁.next := by
  unfold skipMembers
  rw [bind_of_ok h]
  rfl

theorem skipMembers_of_member (hn : Skips n) {key : String} {c₂ c₃ c₄ : Cursor}
    (hfirst : peek? c = .ok (some 0x22, c₁)) (hkey : lexeme scanText c₁.next = .ok (key, c₂))
    (hcolon : colon c₂ = .ok ((), c₃)) (hvalue : valueWith n c₃ = .ok (j, c₄)) (d m : Nat)
    (hm : 2 * c.rest.length < m) :
    skipMembers (m + 1) (c.leave d) = skipOthers m (c₄.leave d) ∧ 2 * c₄.rest.length < m := by
  have hc₁ := (Advances.peek? _ _ _ hfirst).length
  have hnext := (Advances.advance _ _ _ (advance_eq c₁)).length
  have hc₂ := (Advances.text _ _ _ hkey).length
  have hc₃ := (Advances.colon _ _ _ hcolon).length
  have hc₄ := (Advances.valueWith n _ _ _ hvalue).length
  have htext : lexeme _ (c₁.leave d).next = _ := skipText_leave hkey d
  refine ⟨?_, by omega⟩
  rw [skipMembers_succ m _ (peek?_leave hfirst d), bind_of_ok htext, bind_of_ok (colon_leave hcolon d),
    bind_of_ok (hn _ _ _ hvalue d m (by omega))]

theorem skipOthers_of_members (hn : Skips n) {fuel : Nat} {ms₀ ms₁ : List (String × Json)}
    (h : members (anotherMember n) fuel false ms₀ c = .ok (ms₁, c')) (d m : Nat)
    (hm : 2 * c.rest.length < m + 1) :
    skipOthers m (c.leave d) = .ok ((), c'.next.leave d) := by
  induction fuel generalizing c ms₀ m with
  | zero => cases h
  | succ fuel ih =>
    obtain ⟨_, more, c₁, ⟨⟩, hmore, h⟩ := members_eq_ok h
    unfold skipOthers
    rcases moreMembers_eq_ok hmore with ⟨rfl, hpeek⟩ | ⟨-, hfirst, -⟩ | ⟨rfl, -, c₂, hpeek, hpeek'⟩
    . rcases h with ⟨-, -, rfl⟩ | ⟨hmore, -⟩
      . rw [bind_of_ok (peek?_leave hpeek d)]
        rfl
      . cases hmore
    . cases hfirst
    . rcases h with ⟨hmore, -⟩ | ⟨-, key, c₃, c₄, j, c₅, hkey, hcolon, hvalue, h⟩
      . cases hmore
      . have hnext := length_next_of_first hpeek
        have hlength := (Advances.peek? _ _ _ hpeek).length
        have hskips := skipMembers_of_member (c := c₂.next) hn hpeek' hkey hcolon hvalue d
        obtain ⟨m, rfl⟩ : ∃ m', m = m' + 1 := ⟨m - 1, by omega⟩
        obtain ⟨hskip, hm⟩ := hskips m (by omega)
        rw [bind_of_ok (peek?_leave hpeek d)]
        show skipMembers (m + 1) (c₂.next.leave d) = _
        rw [hskip]
        exact ih h m (by omega)

theorem skipWith_of_array (hn : Skips n) {js : List Json} (hfirst : peek? c = .ok (some 0x5B, c₁))
    (h : listWith (anotherItem n) [] c₁ = .ok (js, c')) (d m : Nat)
    (hm : 2 * c.rest.length < m + 1) :
    skipWith (m + 1) (c.leave d) = .ok ((), c'.leave d) := by
  obtain ⟨-, fuel, c₂, -, hitems, rfl⟩ := listWith_eq_ok h
  obtain ⟨_, more, c₃, rfl, hmore, h⟩ := items_eq_ok hitems
  rw [skipWith_of_bracket m (peek?_leave hfirst d)]
  show _ = Except.ok ((), c₂.next.leave d)
  rcases moreItems_eq_ok hmore with ⟨rfl, hpeek⟩ | ⟨rfl, -, b, hb, hpeek⟩ | ⟨-, hfirst, -⟩
  . rcases h with ⟨-, -, rfl⟩ | ⟨hmore, -⟩
    . have hpeek : peek? (c₁.leave d).next = _ := peek?_leave hpeek d
      rw [bind_of_ok hpeek]
      rfl
    . cases hmore
  . rcases h with ⟨hmore, -⟩ | ⟨-, j, c₄, hvalue, h⟩
    . cases hmore
    . have hnext := length_next_of_first hfirst
      have hc₁ := (Advances.peek? _ _ _ hfirst).length
      have hc₃ : c₃.rest.length ≤ c₁.next.rest.length := (Advances.peek? _ _ _ hpeek).length
      have hc₄ := (Advances.valueWith n _ _ _ hvalue).length
      obtain ⟨m, rfl⟩ : ∃ m', m = m' + 1 := ⟨m - 1, by omega⟩
      have hpeek : peek? (c₁.leave d).next = _ := peek?_leave hpeek d
      rw [bind_of_ok hpeek]
      dsimp only
      rw [if_neg (by simp [hb]), skipItems_succ, bind_of_ok (hn _ _ _ hvalue d m (by omega))]
      exact skipRest_of_items hn h d m (by omega)
  . cases hfirst

theorem skipWith_of_object (hn : Skips n) {ms : List (String × Json)}
    (hfirst : peek? c = .ok (some 0x7B, c₁))
    (h : objectWith (anotherMember n) [] c₁ = .ok (ms, c')) (d m : Nat)
    (hm : 2 * c.rest.length < m + 1) :
    skipWith (m + 1) (c.leave d) = .ok ((), c'.leave d) := by
  obtain ⟨-, fuel, c₂, -, hmembers, rfl⟩ := objectWith_eq_ok h
  obtain ⟨_, more, c₃, rfl, hmore, h⟩ := members_eq_ok hmembers
  rw [skipWith_of_brace m (peek?_leave hfirst d)]
  show _ = Except.ok ((), c₂.next.leave d)
  rcases moreMembers_eq_ok hmore with ⟨rfl, hpeek⟩ | ⟨rfl, -, hpeek⟩ | ⟨-, hfirst, -⟩
  . rcases h with ⟨-, -, rfl⟩ | ⟨hmore, -⟩
    . have hpeek : peek? (c₁.leave d).next = _ := peek?_leave hpeek d
      rw [bind_of_ok hpeek]
      rfl
    . cases hmore
  . rcases h with ⟨hmore, -⟩ | ⟨-, key, c₄, c₅, j, c₆, hkey, hcolon, hvalue, h⟩
    . cases hmore
    . have hnext := length_next_of_first hfirst
      have hc₁ := (Advances.peek? _ _ _ hfirst).length
      have hc₃ : c₃.rest.length ≤ c₁.next.rest.length := (Advances.peek? _ _ _ hpeek).length
      obtain ⟨m, rfl⟩ : ∃ m', m = m' + 1 := ⟨m - 1, by omega⟩
      obtain ⟨hskip, hm⟩ := skipMembers_of_member hn (peek?_of_first hpeek) hkey hcolon hvalue d m (by omega)
      have hpeek : peek? (c₁.leave d).next = _ := peek?_leave hpeek d
      rw [bind_of_ok hpeek]
      show skipMembers (m + 1) (c₃.leave d) = _
      rw [hskip]
      exact skipOthers_of_members hn h d m (by omega)
  . cases hfirst

theorem head_leave {b : UInt8} {s : String}
    (hhead : head b = (do advance; word s; pure j : Reader Json)) (h : word s c₁.next = .ok ((), c'))
    (d : Nat) : (head b >>= fun _ => pure ()) (c₁.leave d) = .ok ((), c'.leave d) := by
  have hword : word s (c₁.leave d).next = _ := word_leave h d
  rw [hhead, bind_assoc, bind_of_ok (advance_eq _), bind_assoc, bind_of_ok hword]
  rfl

theorem skipWith_of_numeral {b : UInt8} {x : Number} (hfirst : peek? c = .ok (some b, c₁))
    (hb : startsNumeral b = true) (h : numeral b c₁ = .ok (x, c')) (d m : Nat) :
    skipWith (m + 1) (c.leave d) = .ok ((), c'.leave d) := by
  unfold skipWith
  rw [bind_of_ok (peek?_leave hfirst d)]
  unfold numeral at h
  dsimp only
  by_cases hminus : b = 0x2D
  . subst hminus
    rw [if_pos (beq_self_eq_true _), bind_of_ok (advance_eq _)] at h
    exact lexeme_leave (fun _ _ h => Numeral.skip_of_scan h) h d
  . have hdigit : Numeral.isDigit b = true := by
      unfold startsNumeral at hb
      rw [beq_eq_false_iff_ne.mpr hminus] at hb
      exact hb
    have hquote : b ≠ 0x22 := by
      rintro rfl
      cases hdigit
    rw [if_neg (by simp [hminus])] at h
    rw [if_neg (by simp [hquote]), if_neg (by simp [hminus]), if_pos hdigit]
    exact lexeme_leave (fun _ _ h => Numeral.skip_of_scan h) h d

theorem skips (n : Nat) : Skips n := by
  induction n with
  | zero =>
    intro c j c' h
    cases h
  | succ n ih =>
    intro c j c' h d m hm
    obtain ⟨m, rfl⟩ : ∃ m', m = m' + 1 := ⟨m - 1, by omega⟩
    cases stands_of_valueWith h with
    | null hfirst h =>
      unfold skipWith
      rw [bind_of_ok (peek?_leave hfirst d)]
      exact head_leave rfl h d
    | yes hfirst h =>
      unfold skipWith
      rw [bind_of_ok (peek?_leave hfirst d)]
      exact head_leave rfl h d
    | no hfirst h =>
      unfold skipWith
      rw [bind_of_ok (peek?_leave hfirst d)]
      exact head_leave rfl h d
    | number hfirst hb h => exact skipWith_of_numeral hfirst hb h d m
    | text hfirst h =>
      unfold skipWith
      rw [bind_of_ok (peek?_leave hfirst d)]
      exact skipText_leave h d
    | array hfirst h => exact skipWith_of_array ih hfirst h d m (by omega)
    | object hfirst h => exact skipWith_of_object ih hfirst h d m (by omega)

theorem skip_of_valueWith (h : valueWith n c = .ok (j, c')) : skip c = .ok ((), c') := by
  have hskip := skips n c j c' h c.depth (2 * (c.rest.length + 1)) (by omega)
  have hdepth : c'.leave c.depth = c' := by
    rw [← (Advances.valueWith n _ _ _ h).depth]
    rfl
  unfold skip
  rw [bind_of_ok (fuel_eq c)]
  rw [hdepth] at hskip
  exact hskip

end ClusterRegistration.Json.Reader
