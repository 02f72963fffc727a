import ClusterRegistration.Proofs.Json.Lexeme
import ClusterRegistration.Proofs.Json.Loop
import ClusterRegistration.Proofs.Json.Order

namespace ClusterRegistration

open Text.Utf8

theorem Text.Utf8.encode_append (s s' : String) : encode (s ++ s') = encode s ++ encode s' := by
  unfold encode
  rw [String.toList_append, List.flatMap_append]

namespace Json

namespace Reader

variable {c c₁ c₂ c' : Cursor} {j : Json} {n : Nat} {rest : List UInt8}

theorem peek?_cons {b : UInt8} {d : Nat} (hb : isBlank b = false) :
    peek? ⟨b :: rest, d⟩ = .ok (some b, ⟨b :: rest, d⟩) := by
  rw [peek?_eq]
  unfold Cursor.skipBlanks
  dsimp only
  rw [List.dropWhile_cons, hb]
  rfl

theorem scanWord_append (ws rest : List UInt8) : scanWord ws (ws ++ rest) = .ok ((), rest) := by
  induction ws with
  | nil => rfl
  | cons w ws ih =>
    rw [List.cons_append, scanWord, if_pos (beq_self_eq_true w)]
    exact ih

theorem word_append (s : String) (d : Nat) : word s ⟨encode s ++ rest, d⟩ = .ok ((), ⟨rest, d⟩) := by
  unfold word lexeme
  dsimp only
  rw [scanWord_append]

def itemsTail (js : List Json) : List UInt8 :=
  js.flatMap (fun j => 0x2C :: encode j.render)

theorem encode_renderItems (j : Json) (js : List Json) :
    encode (renderItems escapeChar (j :: js)) = encode j.render ++ itemsTail js := by
  induction js generalizing j with
  | nil => rw [renderItems, itemsTail, List.flatMap_nil, List.append_nil, render]
  | cons j' js ih =>
    have htail : itemsTail (j' :: js) = 0x2C :: encode j'.render ++ itemsTail js := List.flatMap_cons
    rw [renderItems, encode_append, encode_append, ih, htail, List.append_assoc]
    . rfl
    . simp

def memberBytes (m : String × Json) : List UInt8 :=
  0x22 :: (textBytes m.1 ++ 0x3A :: encode m.2.render)

def membersTail (ms : List (String × Json)) : List UInt8 :=
  ms.flatMap (fun m => 0x2C :: memberBytes m)

theorem memberBytes_append (key : String) (j : Json) (rest : List UInt8) :
    memberBytes (key, j) ++ rest = 0x22 :: (textBytes key ++ 0x3A :: (encode j.render ++ rest)) := by
  simp [memberBytes]

theorem encode_member (key : String) (j : Json) :
    encode (renderText escapeChar key ++ ":" ++ renderWith escapeChar j) = memberBytes (key, j) := by
  rw [encode_append, encode_append, encode_renderText, memberBytes]
  rw [List.append_assoc]
  rfl

theorem encode_renderMembers (m : String × Json) (ms : List (String × Json)) :
    encode (renderMembers escapeChar (m :: ms)) = memberBytes m ++ membersTail ms := by
  induction ms generalizing m with
  | nil =>
    rw [renderMembers, encode_member, membersTail, List.flatMap_nil, List.append_nil]
  | cons m' ms ih =>
    have htail : membersTail (m' :: ms) = 0x2C :: memberBytes m' ++ membersTail ms := List.flatMap_cons
    rw [renderMembers, encode_append, encode_append, encode_member, ih, htail, List.append_assoc]
    . rfl
    . simp

theorem exists_first_of_valueWith (h : valueWith n c = .ok (j, c')) :
    ∃ b c₁, b ≠ 0x5D ∧ peek? c = .ok (some b, c₁) ∧ valueWith n c₁ = .ok (j, c') := by
  cases n with
  | zero => cases h
  | succ n =>
    have hfirst : ∃ b c₁, b ≠ 0x5D ∧ peek? c = .ok (some b, c₁) := by
      cases stands_of_valueWith h with
      | null hfirst h | yes hfirst h | no hfirst h | text hfirst h | array hfirst h | object hfirst h =>
        exact ⟨_, _, by decide, hfirst⟩
      | number hfirst hb h =>
        refine ⟨_, _, ?_, hfirst⟩
        exact beq_eq_false_iff_ne.mp (startsNumeral_ne hb rfl)
    obtain ⟨b, c₁, hb, hfirst⟩ := hfirst
    exact ⟨b, c₁, hb, hfirst, by rw [valueWith_of_first _ hfirst]; exact h⟩

theorem items_of_value {fuel : Nat} {first : Bool} {js₀ : List Json}
    (hmore : moreItems first c = .ok (true, c₁)) (h : valueWith n c₁ = .ok (j, c₂)) :
    items (anotherItem n) (fuel + 1) first js₀ c = items (anotherItem n) fuel false (j :: js₀) c₂ := by
  rw [items, bind_of_ok hmore]
  show (anotherItem n js₀ >>= items (anotherItem n) fuel false) c₁ = _
  rw [bind_of_ok (anotherItem_of_ok h)]

theorem moreItems_of_first {b : UInt8} (hb : b ≠ 0x5D) (h : peek? c = .ok (some b, c₁)) :
    moreItems true c = .ok (true, c₁) := by
  unfold moreItems
  rw [bind_of_ok h]
  dsimp only
  rw [if_neg (by simp [hb])]
  rfl

theorem moreItems_of_comma {b : UInt8} {bs : List UInt8} {d : Nat} (hb : b ≠ 0x5D)
    (h : peek? ⟨bs, d⟩ = .ok (some b, c₁)) : moreItems false ⟨0x2C :: bs, d⟩ = .ok (true, c₁) := by
  unfold moreItems
  rw [bind_of_ok (peek?_cons rfl)]
  dsimp only
  rw [if_neg (by decide), if_neg (by decide), if_pos (by decide), bind_of_ok (advance_eq _)]
  unfold Cursor.next
  dsimp only [List.tail_cons]
  rw [bind_of_ok h]
  dsimp only
  rw [if_neg (by simp [hb])]
  rfl

theorem moreMembers_of_first (h : peek? c = .ok (some 0x22, c₁)) :
    moreMembers true c = .ok (true, c₁) := by
  unfold moreMembers
  rw [bind_of_ok h]
  rfl

theorem moreMembers_of_comma {bs : List UInt8} {d : Nat} :
    moreMembers false ⟨0x2C :: 0x22 :: bs, d⟩ = .ok (true, ⟨0x22 :: bs, d⟩) := by
  unfold moreMembers
  rw [bind_of_ok (peek?_cons rfl)]
  dsimp only
  rw [if_neg (by decide), if_neg (by decide), if_pos (by decide), bind_of_ok (advance_eq _)]
  unfold Cursor.next
  dsimp only [List.tail_cons]
  rw [bind_of_ok (peek?_cons rfl)]
  rfl

theorem members_of_value {fuel : Nat} {first : Bool} {ms₀ : List (String × Json)} {key : String}
    {bs : List UInt8} {d : Nat}
    (hmore : moreMembers first c = .ok (true, ⟨0x22 :: (textBytes key ++ 0x3A :: bs), d⟩))
    (h : valueWith n ⟨bs, d⟩ = .ok (j, c')) :
    members (anotherMember n) (fuel + 1) first ms₀ c =
      members (anotherMember n) fuel false ((key, j) :: ms₀) c' := by
  have htext : lexeme scanText ⟨textBytes key ++ 0x3A :: bs, d⟩ = .ok (key, ⟨0x3A :: bs, d⟩) := by
    unfold lexeme
    dsimp only
    rw [scanText_textBytes]
  have hcolon : colon ⟨0x3A :: bs, d⟩ = .ok ((), ⟨bs, d⟩) := by
    unfold colon
    rw [bind_of_ok (peek?_cons rfl)]
    rfl
  rw [members, bind_of_ok hmore]
  show (advance >>= fun _ => lexeme scanText >>= fun key => colon >>= fun _ =>
    anotherMember n ms₀ key >>= members (anotherMember n) fuel false) _ = _
  rw [bind_of_ok (advance_eq _)]
  unfold Cursor.next
  dsimp only [List.tail_cons]
  rw [bind_of_ok htext, bind_of_ok hcolon, bind_of_ok (anotherMember_of_ok h)]

open Numeral (Closed digitsOf)

theorem closed_of_mem {b : UInt8} {bs : List UInt8} (h : b ∈ [0x2C, 0x5D, 0x7D]) : Closed (b :: bs) := by
  intro b' hb'
  cases hb'
  simp only [List.mem_cons, List.not_mem_nil, or_false] at h
  rcases h with rfl | rfl | rfl <;> exact ⟨rfl, by decide, rfl⟩

theorem closed_itemsTail (js : List Json) (rest : List UInt8) : Closed (itemsTail js ++ 0x5D :: rest) := by
  cases js with
  | nil => exact closed_of_mem (by decide)
  | cons j js => exact closed_of_mem (by decide)

theorem closed_membersTail (ms : List (String × Json)) (rest : List UInt8) : Closed (membersTail ms ++ 0x7D :: rest) := by
  cases ms with
  | nil => exact closed_of_mem (by decide)
  | cons m ms => exact closed_of_mem (by decide)

theorem valueWith_numeral {b : UInt8} {bs : List UInt8} {d : Nat} {x : Number}
    (hb : startsNumeral b = true) (h : numeral b ⟨b :: bs, d⟩ = .ok (x, c')) :
    valueWith (n + 1) ⟨b :: bs, d⟩ = .ok (.number x, c') := by
  have hblank : isBlank b = false := by
    unfold isBlank
    rw [startsNumeral_ne hb rfl, startsNumeral_ne hb rfl, startsNumeral_ne hb rfl, startsNumeral_ne hb rfl]
    rfl
  rw [valueWith_succ, bind_of_ok (peek?_cons hblank)]
  dsimp only
  unfold head
  rw [startsNumeral_ne hb rfl, startsNumeral_ne hb rfl, startsNumeral_ne hb rfl, startsNumeral_ne hb rfl,
    startsNumeral_ne hb rfl, hb]
  exact bind_of_ok h

theorem exists_digitsOf_cons (m : Nat) : ∃ b bs, digitsOf m = b :: bs ∧ Numeral.isDigit b = true := by
  have hall := Numeral.isDigit_of_mem_digitsOf m
  cases hdigits : digitsOf m with
  | nil => exact absurd (List.map_eq_nil_iff.mp hdigits) Nat.toDigits_ne_nil
  | cons b bs => exact ⟨b, bs, rfl, hall b (hdigits ▸ List.mem_cons_self)⟩

theorem lexeme_of_ok {α : Type} {scan : List UInt8 → Except Malformation (α × List UInt8)} {a : α}
    {bs : List UInt8} {d : Nat} (h : scan bs = .ok (a, rest)) :
    lexeme scan ⟨bs, d⟩ = .ok (a, ⟨rest, d⟩) := by
  unfold lexeme
  dsimp only
  rw [h]

theorem valueWith_ofNat {m : Nat} (hm : m ≤ Numeral.maxSignificand) (d : Nat) (hrest : Closed rest) :
    valueWith (n + 1) ⟨encode (toString m) ++ rest, d⟩ = .ok (Json.integer m, ⟨rest, d⟩) := by
  have hscan := Numeral.scan_digitsOf true hm hrest
  rw [Numeral.encode_toString]
  obtain ⟨b, bs, hbs, hb⟩ := exists_digitsOf_cons m
  rw [hbs] at hscan ⊢
  have hstart : startsNumeral b = true := by
    unfold startsNumeral
    rw [hb, Bool.or_true]
  have hminus : b ≠ 0x2D := by
    rintro rfl
    cases hb
  refine valueWith_numeral hstart ?_
  unfold numeral
  rw [if_neg (by simp [hminus])]
  exact lexeme_of_ok hscan

theorem whole_negSucc {m : Nat} (hm : m + 1 ≤ Nat.pow 2 63) :
    Numeral.whole false (m + 1) = .integer (Int.negSucc m) := by
  have hzero : ¬ (m + 1 = 0 ∨ Nat.pow 2 63 < m + 1) := by
    generalize Nat.pow 2 63 = limit at hm ⊢
    omega
  unfold Numeral.whole
  simp only [Bool.false_eq_true, if_false, Bool.or_eq_true, decide_eq_true_eq, hzero]
  rfl

theorem valueWith_negSucc {m : Nat} (hm : m + 1 ≤ Nat.pow 2 63) (d : Nat) (hrest : Closed rest) :
    valueWith (n + 1) ⟨encode (toString (Int.negSucc m)) ++ rest, d⟩ =
      .ok (Json.integer (Int.negSucc m), ⟨rest, d⟩) := by
  have hscan := Numeral.scan_digitsOf false (Nat.le_trans hm (by decide)) hrest
  rw [whole_negSucc hm] at hscan
  rw [show toString (Int.negSucc m) = "-" ++ toString (m + 1) from rfl, encode_append,
    Numeral.encode_toString]
  refine valueWith_numeral rfl ?_
  show (advance >>= fun _ => lexeme (Numeral.scan false)) _ = _
  rw [bind_of_ok (advance_eq _)]
  exact lexeme_of_ok hscan

theorem valueWith_integer {i : Int} (hlow : -9223372036854775808 ≤ i) (hhigh : i ≤ 18446744073709551615)
    (d : Nat) (hrest : Closed rest) :
    valueWith (n + 1) ⟨encode (toString i) ++ rest, d⟩ = .ok (Json.integer i, ⟨rest, d⟩) := by
  cases i with
  | ofNat m =>
    have hmax : Numeral.maxSignificand = 18446744073709551615 := by decide
    have hm : m ≤ Numeral.maxSignificand := by
      rw [hmax]
      exact Int.ofNat_le.mp hhigh
    exact valueWith_ofNat hm d hrest
  | negSucc m =>
    have hmax : Nat.pow 2 63 = 9223372036854775808 := by decide
    have hm : m + 1 ≤ Nat.pow 2 63 := by
      rw [hmax]
      omega
    exact valueWith_negSucc hm d hrest

theorem listWith_of_items {js : List Json} (hdepth : ¬ c.depth ≤ 1)
    (h : items (anotherItem n) (c.enter.next.rest.length + 1) true [] c.enter.next = .ok (js, c₁)) :
    listWith (anotherItem n) [] c = .ok (js, (c₁.leave c.depth).next) := by
  have hnested : nested (advance >>= fun _ => fuel >>= fun f => items (anotherItem n) f true []) c =
      .ok (js, c₁.leave c.depth) := by
    apply nested_of_ok hdepth
    rw [bind_of_ok (advance_eq _), bind_of_ok (fuel_eq _)]
    exact h
  unfold listWith
  rw [bind_of_ok hnested, bind_of_ok (advance_eq _)]
  rfl

theorem objectWith_of_members {ms : List (String × Json)} (hdepth : ¬ c.depth ≤ 1)
    (h : members (anotherMember n) (c.enter.next.rest.length + 1) true [] c.enter.next = .ok (ms, c₁)) :
    objectWith (anotherMember n) [] c = .ok (ms, (c₁.leave c.depth).next) := by
  have hnested : nested (advance >>= fun _ => fuel >>= fun f => members (anotherMember n) f true []) c =
      .ok (ms, c₁.leave c.depth) := by
    apply nested_of_ok hdepth
    rw [bind_of_ok (advance_eq _), bind_of_ok (fuel_eq _)]
    exact h
  unfold objectWith
  rw [bind_of_ok hnested, bind_of_ok (advance_eq _)]
  rfl

theorem items_of_bracket (n d fuel : Nat) (first : Bool) (js : List Json) (rest : List UInt8) :
    items (anotherItem n) (fuel + 1) first js ⟨0x5D :: rest, d⟩ = .ok (js, ⟨0x5D :: rest, d⟩) := by
  have hmore : moreItems first ⟨0x5D :: rest, d⟩ = .ok (false, ⟨0x5D :: rest, d⟩) := by
    unfold moreItems
    rw [bind_of_ok (peek?_cons rfl)]
    rfl
  rw [items, bind_of_ok hmore]
  rfl

theorem members_of_brace (n d fuel : Nat) (first : Bool) (ms : List (String × Json))
    (rest : List UInt8) :
    members (anotherMember n) (fuel + 1) first ms ⟨0x7D :: rest, d⟩ = .ok (ms, ⟨0x7D :: rest, d⟩) := by
  have hmore : moreMembers first ⟨0x7D :: rest, d⟩ = .ok (false, ⟨0x7D :: rest, d⟩) := by
    unfold moreMembers
    rw [bind_of_ok (peek?_cons rfl)]
    rfl
  rw [members, bind_of_ok hmore]
  rfl

theorem valueWith_array {d : Nat} (bs : List UInt8) {js : List Json}
    (h : items (anotherItem n) (bs.length + 1) true [] ⟨bs, d + 1⟩ = .ok (js.reverse, ⟨0x5D :: rest, d + 1⟩)) :
    valueWith (n + 1) ⟨0x5B :: bs, d + 2⟩ = .ok (.array js, ⟨rest, d + 2⟩) := by
  have hlist : listWith (anotherItem n) [] ⟨0x5B :: bs, d + 2⟩ = .ok (js.reverse, ⟨rest, d + 2⟩) :=
    listWith_of_items (c := ⟨0x5B :: bs, d + 2⟩) (by simp) h
  rw [valueWith_succ, bind_of_ok (peek?_cons rfl)]
  show (listWith (anotherItem n) [] >>= fun js => pure (Json.array js.reverse)) _ = _
  rw [bind_of_ok hlist, List.reverse_reverse]
  rfl

theorem valueWith_object {d : Nat} (bs : List UInt8) {ms : List (String × Json)}
    (h : members (anotherMember n) (bs.length + 1) true [] ⟨bs, d + 1⟩ =
      .ok (ms.reverse, ⟨0x7D :: rest, d + 1⟩)) :
    valueWith (n + 1) ⟨0x7B :: bs, d + 2⟩ = .ok (.object ms, ⟨rest, d + 2⟩) := by
  have hobject : objectWith (anotherMember n) [] ⟨0x7B :: bs, d + 2⟩ = .ok (ms.reverse, ⟨rest, d + 2⟩) :=
    objectWith_of_members (c := ⟨0x7B :: bs, d + 2⟩) (by simp) h
  rw [valueWith_succ, bind_of_ok (peek?_cons rfl)]
  show (objectWith (anotherMember n) [] >>= fun ms => pure (Json.object ms.reverse)) _ = _
  rw [bind_of_ok hobject, List.reverse_reverse]
  rfl

theorem length_le_itemsTail (js : List Json) : js.length ≤ (itemsTail js).length := by
  induction js with
  | nil => exact Nat.le_refl _
  | cons j js ih =>
    have htail : itemsTail (j :: js) = 0x2C :: encode j.render ++ itemsTail js := List.flatMap_cons
    rw [htail, List.length_append, List.length_cons, List.length_cons]
    omega

theorem length_le_membersTail (ms : List (String × Json)) : ms.length ≤ (membersTail ms).length := by
  induction ms with
  | nil => exact Nat.le_refl _
  | cons m ms ih =>
    have htail : membersTail (m :: ms) = 0x2C :: memberBytes m ++ membersTail ms := List.flatMap_cons
    rw [htail, List.length_append, List.length_cons, List.length_cons]
    omega

theorem valueWith_head {b : UInt8} {bs : List UInt8} {d : Nat} (hblank : isBlank b = false)
    (hlist : (b == 0x5B) = false) (hobject : (b == 0x7B) = false) :
    valueWith (n + 1) ⟨b :: bs, d⟩ = head b ⟨b :: bs, d⟩ := by
  rw [valueWith_succ, bind_of_ok (peek?_cons hblank)]
  dsimp only
  rw [hlist, hobject]
  rfl

theorem valueWith_word {b : UInt8} {tail : String} {d : Nat} (hblank : isBlank b = false)
    (hlist : (b == 0x5B) = false) (hobject : (b == 0x7B) = false)
    (hhead : ∀ c, head b c = (advance >>= fun _ => word tail >>= fun _ => pure j) c) :
    valueWith (n + 1) ⟨b :: encode tail ++ rest, d⟩ = .ok (j, ⟨rest, d⟩) := by
  rw [List.cons_append, valueWith_head hblank hlist hobject, hhead, bind_of_ok (advance_eq _)]
  exact bind_of_ok (word_append tail d)

theorem valueWith_text (s : String) {d : Nat} :
    valueWith (n + 1) ⟨0x22 :: textBytes s ++ rest, d⟩ = .ok (.text s, ⟨rest, d⟩) := by
  rw [List.cons_append, valueWith_head rfl rfl rfl]
  show (advance >>= fun _ => lexeme scanText >>= fun s => pure (Json.text s)) _ = _
  rw [bind_of_ok (advance_eq _)]
  exact bind_of_ok (lexeme_of_ok (scanText_textBytes s rest))

theorem encode_words : encode "null" = 0x6E :: encode "ull" ∧ encode "true" = 0x74 :: encode "rue" ∧
    encode "false" = 0x66 :: encode "alse" := by
  decide

mutual

theorem valueWith_render (n : Nat) (j : Json) (h : j.Writable n) {rest : List UInt8}
    (hrest : Closed rest) :
    valueWith (n + 1) ⟨encode j.render ++ rest, n + 1⟩ = .ok (j, ⟨rest, n + 1⟩) := by
  cases j with
  | null =>
    rw [render, renderWith, encode_words.1]
    exact valueWith_word rfl rfl rfl (fun _ => rfl)
  | flag b =>
    cases b with
    | true =>
      rw [render, renderWith, if_pos rfl, encode_words.2.1]
      exact valueWith_word rfl rfl rfl (fun _ => rfl)
    | false =>
      rw [render, renderWith, if_neg (by decide), encode_words.2.2]
      exact valueWith_word rfl rfl rfl (fun _ => rfl)
  | number x =>
    cases x with
    | integer i =>
      rw [Writable] at h
      exact valueWith_integer h.1 h.2 (n + 1) hrest
    | float f =>
      rw [Writable] at h
      exact h.elim
  | text s =>
    rw [render, renderWith, encode_renderText]
    exact valueWith_text s
  | array js =>
    cases n with
    | zero =>
      rw [Writable] at h
      exact h.elim
    | succ n =>
      rw [Writable] at h
      rw [render, renderWith, encode_append, encode_append, List.append_assoc, List.append_assoc]
      refine valueWith_array (encode (renderItems escapeChar js) ++ 0x5D :: rest) ?_
      cases js with
      | nil => exact items_of_bracket _ _ _ true [] rest
      | cons j js =>
        rw [encode_renderItems, List.append_assoc]
        -- What comes after an item is a comma or the bracket, and neither goes on with a numeral.
        have hvalue := valueWith_render n j h.1 (closed_itemsTail js rest)
        obtain ⟨b, c₁, hb, hfirst, hvalue⟩ := exists_first_of_valueWith hvalue
        rw [items_of_value (moreItems_of_first hb hfirst) hvalue]
        have hlength := length_le_itemsTail js
        rw [items_render n js h.2 rest [j] (by simp only [List.length_append, List.length_cons]; omega)]
        rw [List.reverse_cons]
  | object ms =>
    cases n with
    | zero =>
      rw [Writable] at h
      exact h.elim
    | succ n =>
      rw [Writable] at h
      rw [render, renderWith, encode_append, encode_append, List.append_assoc, List.append_assoc]
      refine valueWith_object (encode (renderMembers escapeChar ms) ++ 0x7D :: rest) ?_
      cases ms with
      | nil => exact members_of_brace _ _ _ true [] rest
      | cons m ms =>
        obtain ⟨key, j⟩ := m
        rw [encode_renderMembers, List.append_assoc]
        have hvalue := valueWith_render n j h.2.1 (closed_membersTail ms rest)
        rw [memberBytes_append, members_of_value (moreMembers_of_first (peek?_cons rfl)) hvalue]
        have hlength := length_le_membersTail ms
        rw [members_render n ms h.2.2 rest [(key, j)]
          (by simp only [List.length_append, List.length_cons]; omega)]
        rw [List.reverse_cons]

theorem items_render (n : Nat) (js : List Json) (h : WritableItems n js) (rest : List UInt8)
    (js₀ : List Json) {fuel : Nat} (hfuel : js.length < fuel) :
    items (anotherItem (n + 1)) fuel false js₀ ⟨itemsTail js ++ 0x5D :: rest, n + 1⟩ =
      .ok (js.reverse ++ js₀, ⟨0x5D :: rest, n + 1⟩) := by
  obtain ⟨fuel, rfl⟩ : ∃ m, fuel = m + 1 := ⟨fuel - 1, by omega⟩
  cases js with
  | nil => exact items_of_bracket _ _ fuel false js₀ rest
  | cons j js =>
    have htail : itemsTail (j :: js) = 0x2C :: encode j.render ++ itemsTail js := List.flatMap_cons
    have hvalue := valueWith_render n j h.1 (closed_itemsTail js rest)
    obtain ⟨b, c₁, hb, hfirst, hvalue⟩ := exists_first_of_valueWith hvalue
    rw [htail, List.append_assoc, List.cons_append, items_of_value (moreItems_of_comma hb hfirst) hvalue]
    rw [items_render n js h.2 rest (j :: js₀) (by simpa using hfuel)]
    rw [List.reverse_cons, List.append_assoc, List.singleton_append]

theorem members_render (n : Nat) (ms : List (String × Json)) (h : WritableMembers n ms)
    (rest : List UInt8) (ms₀ : List (String × Json)) {fuel : Nat} (hfuel : ms.length < fuel) :
    members (anotherMember (n + 1)) fuel false ms₀ ⟨membersTail ms ++ 0x7D :: rest, n + 1⟩ =
      .ok (ms.reverse ++ ms₀, ⟨0x7D :: rest, n + 1⟩) := by
  obtain ⟨fuel, rfl⟩ : ∃ m, fuel = m + 1 := ⟨fuel - 1, by omega⟩
  cases ms with
  | nil => exact members_of_brace _ _ fuel false ms₀ rest
  | cons m ms =>
    obtain ⟨key, j⟩ := m
    have htail : membersTail ((key, j) :: ms) ++ 0x7D :: rest =
        0x2C :: 0x22 :: (textBytes key ++ 0x3A :: (encode j.render ++ (membersTail ms ++ 0x7D :: rest))) := by
      unfold membersTail
      rw [List.flatMap_cons, List.cons_append, List.cons_append, List.append_assoc, memberBytes_append]
    have hvalue := valueWith_render n j h.1 (closed_membersTail ms rest)
    rw [htail, members_of_value moreMembers_of_comma hvalue]
    rw [members_render n ms h.2 rest ((key, j) :: ms₀) (by simpa using hfuel)]
    rw [List.reverse_cons, List.append_assoc, List.singleton_append]

end

end Reader

def maxNesting : Nat := 127

theorem parse_render {j : Json} (h : j.Writable maxNesting) : parse (encode j.render) = .ok j := by
  have hclosed : Numeral.Closed [] := by
    intro _ hb
    cases hb
  have hvalue := Reader.valueWith_render maxNesting j h hclosed
  rw [List.append_nil] at hvalue
  exact Reader.parse_of_valueWith hvalue rfl

end Json

end ClusterRegistration
