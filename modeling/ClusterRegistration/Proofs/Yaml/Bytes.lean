import ClusterRegistration.Proofs.Text.Utf8
import ClusterRegistration.Proofs.Yaml.Node
import ClusterRegistration.Yaml.Reader

namespace ClusterRegistration.Yaml

open Text.Utf8

section Decoding

variable {b : UInt8} {trail rest : List UInt8} {c : Char} {fuel offset : Nat}

theorem exists_encodeChar (c : Char) :
    ∃ b trail, encodeChar c = b :: trail ∧ sequenceWidth b = trail.length + 1 ∧
      ∀ a ∈ trail, isTrail a = true := by
  have hvalid := toNat_bounds c
  have htrail (n : Nat) : isTrail (0x80 + n % 0x40).toUInt8 = true := by
    have hn := toNat_toUInt8 (n := 0x80 + n % 0x40) (by omega)
    apply isTrail_of_le <;> omega
  have hwidth (n : Nat) (h : n < 256) : sequenceWidth n.toUInt8 =
      if n < 0x80 then 1 else if n < 0xC0 then 0 else if n < 0xE0 then 2 else if n < 0xF0 then 3
        else if n < 0xF8 then 4 else 0 := by
    simp only [sequenceWidth, UInt8.lt_iff_toNat_lt, toNat_toUInt8 h, UInt8.reduceToNat]
  have hforall {as : List UInt8} (h : as.all isTrail = true) : ∀ a ∈ as, isTrail a = true :=
    List.all_eq_true.mp h
  unfold encodeChar
  simp only
  split
  . refine ⟨_, [], rfl, ?_, hforall rfl⟩
    rw [hwidth _ (by omega), if_pos (by assumption)]
    rfl
  . split
    . refine ⟨_, _, rfl, ?_, hforall (by simp only [List.all_cons, htrail, List.all_nil, Bool.and_true])⟩
      rw [hwidth _ (by omega), if_neg (by omega), if_neg (by omega), if_pos (by omega)]
      rfl
    . split
      . refine ⟨_, _, rfl, ?_, hforall (by simp only [List.all_cons, htrail, List.all_nil, Bool.and_true])⟩
        rw [hwidth _ (by omega), if_neg (by omega), if_neg (by omega), if_neg (by omega),
          if_pos (by omega)]
        rfl
      . refine ⟨_, _, rfl, ?_, hforall (by simp only [List.all_cons, htrail, List.all_nil, Bool.and_true])⟩
        rw [hwidth _ (by omega), if_neg (by omega), if_neg (by omega), if_neg (by omega),
          if_neg (by omega), if_pos (by omega)]
        rfl

theorem decode_cons (hwidth : sequenceWidth b = trail.length + 1) (htrail : ∀ a ∈ trail, isTrail a = true)
    (hstep : step (b :: (trail ++ rest)) = .char c rest) (hc : isAllowed c = true) :
    decode (fuel + 1) offset (b :: (trail ++ rest)) =
      (decode fuel (offset + (trail.length + 1)) rest).map (c :: ·) := by
  have hfind : trail.findIdx? (!isTrail ·) = none := by
    rw [List.findIdx?_eq_none_iff]
    intro a ha
    rw [htrail a ha]
    rfl
  rw [decode]
  simp only [hwidth, Nat.add_sub_cancel, List.take_left, hfind, hstep, hc, Nat.lt_irrefl,
    Nat.add_eq_zero_iff, Nat.one_ne_zero, and_false, ↓reduceIte]
  cases decode fuel (offset + (trail.length + 1)) rest <;> rfl

theorem decode_flatMap {cs : List Char} (h : ∀ c ∈ cs, isAllowed c = true)
    (hfuel : (cs.flatMap encodeChar).length < fuel) :
    decode fuel offset (cs.flatMap encodeChar) = .ok cs := by
  induction cs generalizing fuel offset with
  | nil =>
    obtain ⟨fuel, rfl⟩ : ∃ n, fuel = n + 1 := ⟨fuel - 1, by omega⟩
    rfl
  | cons c cs ih =>
    obtain ⟨fuel, rfl⟩ : ∃ n, fuel = n + 1 := ⟨fuel - 1, by omega⟩
    obtain ⟨b, trail, hchar, hwidth, htrail⟩ := exists_encodeChar c
    have hstep := step_encodeChar c (cs.flatMap encodeChar)
    rw [List.flatMap_cons, List.length_append] at hfuel
    rw [hchar, List.length_cons] at hfuel
    rw [hchar, List.cons_append] at hstep
    rw [List.flatMap_cons, hchar, List.cons_append]
    rw [decode_cons hwidth htrail hstep (h c List.mem_cons_self)]
    rw [ih (fun c' hc' => h c' (List.mem_cons_of_mem c hc')) (by omega)]
    rfl

end Decoding

section Allowed

variable {indent : Nat} {a c : Char} {cs : List Char}

theorem isAllowed_of_all (h : cs.all isAllowed = true) : ∀ a ∈ cs, isAllowed a = true :=
  List.all_eq_true.mp h

theorem isAllowed_of_isPrintable (h : isPrintable a = true) : isAllowed a = true := by
  simp only [isPrintable, isAllowed, Bool.or_eq_true, Bool.and_eq_true, decide_eq_true_eq,
    beq_iff_eq] at h ⊢
  omega

theorem isAllowed_of_isAlphanum (h : a.isAlphanum = true) : isAllowed a = true := by
  have hall : ∀ n < 128, (Char.ofNat n).isAlphanum = true → isAllowed (Char.ofNat n) = true := by
    decide +kernel
  have ha := hall a.toNat (lt_of_isAlphanum h)
  rw [Char.ofNat_toNat] at ha
  exact ha h

theorem isAllowed_of_mem_blanks {n : Nat} : ∀ a ∈ Text.blanks n, isAllowed a = true := by
  intro a ha
  rw [eq_of_mem_blanks a ha]
  decide

theorem isAllowed_of_key (h : Key cs) : ∀ a ∈ cs, isAllowed a = true := by
  intro a ha
  rcases h.all a ha with ha | rfl
  . exact isAllowed_of_isAlphanum ha
  . decide

theorem isAllowed_of_mem_hex {count n : Nat} : ∀ a ∈ Text.hex count n, isAllowed a = true := by
  have hdigit : ∀ d < 16, isAllowed (Text.upperHexDigit d) = true := by
    decide
  induction count generalizing n with
  | zero =>
    intro a ha
    cases ha
  | succ count ih =>
    intro a ha
    rw [Text.hex, List.mem_append, List.mem_singleton] at ha
    rcases ha with ha | rfl
    . exact ih a ha
    . exact hdigit _ (Nat.mod_lt _ (by decide))

theorem isAllowed_of_mem_escape : ∀ a ∈ Text.escape c, isAllowed a = true := by
  have hdigits (letter : Char) (count : Nat) (hletter : isAllowed letter = true) :
      ∀ a ∈ '\\' :: letter :: Text.hex count c.toNat, isAllowed a = true := by
    rw [List.forall_mem_cons, List.forall_mem_cons]
    exact ⟨by decide, hletter, isAllowed_of_mem_hex⟩
  unfold Text.escape
  split
  case h_15 =>
    show ∀ a ∈ (if isPrintable c then _ else if c.toNat ≤ 0xFF then _ else if c.toNat ≤ 0xFFFF then _ else _),
      isAllowed a = true
    split
    . next hprintable =>
      rw [List.forall_mem_singleton]
      exact isAllowed_of_isPrintable hprintable
    . split
      . exact hdigits 'x' 2 (by decide)
      . split
        . exact hdigits 'u' 4 (by decide)
        . exact hdigits 'U' 8 (by decide)
  all_goals exact isAllowed_of_all rfl

theorem isAllowed_of_mem_singleQuotedBody {afterBreak : Bool} (h : ∀ a ∈ cs, isAllowed a = true) :
    ∀ a ∈ Text.singleQuotedBody indent afterBreak cs, isAllowed a = true := by
  have hblanks (afterBreak : Bool) :
      ∀ a ∈ (if afterBreak then Text.blanks indent else []), isAllowed a = true := by
    split
    . exact isAllowed_of_mem_blanks
    . simp
  induction cs generalizing afterBreak with
  | nil => exact hblanks afterBreak
  | cons c cs ih =>
    rw [List.forall_mem_cons] at h
    rw [Text.singleQuotedBody]
    split
    . rw [List.forall_mem_cons]
      exact ⟨h.1, ih h.2⟩
    . rw [List.forall_mem_append, List.forall_mem_append]
      refine ⟨⟨hblanks afterBreak, ?_⟩, ih h.2⟩
      split
      . exact isAllowed_of_all rfl
      . simpa using h.1

theorem isAllowed_of_mem_text (s : String) : ∀ a ∈ Text.render indent s, isAllowed a = true := by
  have hclean {cs : List Char} (h : Text.isClean cs = true) : ∀ a ∈ cs, isAllowed a = true :=
    fun a ha => isAllowed_of_isPrintable (Text.isPrintable_of_isClean h a ha)
  unfold Text.render
  cases hstyle : Text.style s with
  | plain =>
    obtain ⟨-, hallows⟩ := Text.of_style_plain hstyle
    simp only [Text.allowsPlain, Bool.and_eq_true] at hallows
    -- Here the text is clean itself. Between double quotes it need not be, but its escapes are.
    rw [List.forall_mem_append]
    exact ⟨hclean hallows.1.1.1.1.1.1, isAllowed_of_all rfl⟩
  | singleQuoted =>
    have hcalm := Text.of_style_singleQuoted hstyle
    rw [List.forall_mem_append]
    refine ⟨?_, isAllowed_of_all rfl⟩
    unfold Text.singleQuoted
    rw [List.forall_mem_append, List.forall_mem_cons]
    refine ⟨⟨by decide, ?_⟩, isAllowed_of_all rfl⟩
    apply isAllowed_of_mem_singleQuotedBody
    exact fun a ha => isAllowed_of_isPrintable (hcalm.printable a ha)
  | doubleQuoted =>
    rw [List.forall_mem_append]
    refine ⟨?_, isAllowed_of_all rfl⟩
    unfold Text.doubleQuoted
    rw [List.forall_mem_append, List.forall_mem_cons]
    refine ⟨⟨by decide, ?_⟩, isAllowed_of_all rfl⟩
    intro a ha
    obtain ⟨c, -, hc⟩ := List.mem_flatMap.mp ha
    exact isAllowed_of_mem_escape a hc
  | literal =>
    obtain ⟨hallows, -⟩ := Text.of_style_literal hstyle
    rw [Text.allowsLiteral, Bool.and_eq_true] at hallows
    have hsigns : ∀ a ∈ ['|', '2', '-', '+', '\n', ' '], isAllowed a = true := isAllowed_of_all rfl
    intro a ha
    rcases Text.mem_literal ha with ha | ha
    . exact hclean hallows.1 a ha
    . exact hsigns a ha

theorem isAllowed_of_mem_leaf {j : Json} (h : Writable j) :
    ∀ a ∈ renderLeaf indent j, isAllowed a = true := by
  cases h with
  | text s => exact isAllowed_of_mem_text s
  | flag b =>
    apply isAllowed_of_all
    cases b <;> rfl
  | array => exact isAllowed_of_all rfl
  | object => exact isAllowed_of_all rfl

theorem isAllowed_of_mem_items {js : List Json}
    (h : ∀ j ∈ js, ∀ indent, ∀ a ∈ renderAfterDash indent j, isAllowed a = true) :
    ∀ a ∈ renderItems indent js, isAllowed a = true := by
  induction js with
  | nil =>
    intro a ha
    rw [renderItems] at ha
    cases ha
  | cons j js ih =>
    rw [List.forall_mem_cons] at h
    have hitem : ∀ a ∈ '-' :: renderAfterDash indent j, isAllowed a = true := by
      rw [List.forall_mem_cons]
      exact ⟨by decide, h.1 indent⟩
    cases js with
    | nil =>
      rw [renderItems]
      exact hitem
    | cons j' js =>
      rw [renderItems, List.forall_mem_append, List.forall_mem_append]
      . exact ⟨⟨hitem, isAllowed_of_mem_blanks⟩, ih h.2⟩
      . simp

theorem isAllowed_of_mem_members {ms : List (String × Json)} (hkeys : ∀ m ∈ ms, Key m.1.toList)
    (h : ∀ m ∈ ms, ∀ indent, ∀ a ∈ renderAfterKey indent m.2, isAllowed a = true) :
    ∀ a ∈ renderMembers indent ms, isAllowed a = true := by
  induction ms with
  | nil =>
    intro a ha
    rw [renderMembers] at ha
    cases ha
  | cons m ms ih =>
    obtain ⟨k, j⟩ := m
    rw [List.forall_mem_cons] at h hkeys
    have hmember : ∀ a ∈ k.toList ++ ':' :: renderAfterKey indent j, isAllowed a = true := by
      rw [List.forall_mem_append, List.forall_mem_cons]
      exact ⟨isAllowed_of_key hkeys.1, by decide, h.1 indent⟩
    cases ms with
    | nil =>
      rw [renderMembers]
      exact hmember
    | cons m' ms =>
      rw [renderMembers, List.forall_mem_append, List.forall_mem_append]
      . exact ⟨⟨hmember, isAllowed_of_mem_blanks⟩, ih hkeys.2 h.2⟩
      . simp

theorem isAllowed_of_writable {j : Json} (h : Writable j) : ∀ indent,
    (∀ a ∈ renderAfterKey indent j, isAllowed a = true) ∧
      ∀ a ∈ renderAfterDash indent j, isAllowed a = true := by
  have hleaf {j : Json} (hj : Writable j) (indent : Nat) :
      ∀ a ∈ ' ' :: renderLeaf indent j, isAllowed a = true := by
    rw [List.forall_mem_cons]
    exact ⟨by decide, isAllowed_of_mem_leaf hj⟩
  induction h with
  | text s => exact fun indent => ⟨hleaf (.text s) indent, hleaf (.text s) indent⟩
  | flag b => exact fun indent => ⟨hleaf (.flag b) indent, hleaf (.flag b) indent⟩
  | @array js h ih =>
    intro indent
    have hitems (indent : Nat) : ∀ a ∈ renderItems indent js, isAllowed a = true :=
      isAllowed_of_mem_items (fun j hj indent => (ih j hj indent).2)
    cases js with
    | nil => exact ⟨hleaf (.array h) indent, hleaf (.array h) indent⟩
    | cons j js =>
      rw [renderAfterKey, renderAfterDash, List.forall_mem_append, List.forall_mem_cons, List.forall_mem_cons]
      exact ⟨⟨⟨by decide, isAllowed_of_mem_blanks⟩, hitems indent⟩, by decide, hitems (indent + 2)⟩
  | @object ms hkeys h ih =>
    intro indent
    have hmembers (indent : Nat) : ∀ a ∈ renderMembers indent ms, isAllowed a = true :=
      isAllowed_of_mem_members hkeys (fun m hm indent => (ih m hm indent).1)
    cases ms with
    | nil => exact ⟨hleaf (.object hkeys h) indent, hleaf (.object hkeys h) indent⟩
    | cons m ms =>
      rw [renderAfterKey, renderAfterDash, List.forall_mem_append, List.forall_mem_cons, List.forall_mem_cons]
      exact ⟨⟨⟨by decide, isAllowed_of_mem_blanks⟩, hmembers (indent + 2)⟩, by decide,
        hmembers (indent + 2)⟩

end Allowed

theorem decode_render {m : String × Json} {ms : List (String × Json)} (h : Writable (.object (m :: ms))) :
    let bs := encode (render (.object (m :: ms)))
    decode (bs.length + 1) 0 bs = .ok (render (.object (m :: ms))).toList := by
  cases h with
  | object hkeys h =>
    apply decode_flatMap _ (Nat.lt_succ_self _)
    rw [render, String.toList_ofList]
    exact isAllowed_of_mem_members hkeys (fun m hm indent => (isAllowed_of_writable (h m hm) indent).1)

end ClusterRegistration.Yaml
