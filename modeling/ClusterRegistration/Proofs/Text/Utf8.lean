import ClusterRegistration.Text.Utf8

namespace ClusterRegistration.Text.Utf8

theorem toNat_toUInt8 {n : Nat} (h : n < 256) : n.toUInt8.toNat = n :=
  Nat.mod_eq_of_lt h

theorem toUInt8_of_eq {n : Nat} {b : UInt8} (h : n = b.toNat) : n.toUInt8 = b := by
  rw [h]
  apply UInt8.ofNat_toNat

theorem toNat_ofNat {n : Nat} (h : n < 0xD800 ∨ 0xDFFF < n ∧ n < 0x110000) : (Char.ofNat n).toNat = n := by
  have hvalid : n.isValidChar := h
  unfold Char.ofNat
  rw [dif_pos hvalid]
  rfl

section Steps

variable {a b c d : UInt8} {rest : List UInt8}

theorem isTrail_of_le (h : 0x80 ≤ b.toNat) (h' : b.toNat ≤ 0xBF) : isTrail b = true := by
  simp only [isTrail, UInt8.le_iff_toNat_le, Bool.and_eq_true, decide_eq_true_eq]
  exact ⟨h, h'⟩

theorem isSecond_of_le (h : 0x80 ≤ b.toNat) (h' : b.toNat ≤ 0xBF)
    (hE0 : a.toNat = 0xE0 → 0xA0 ≤ b.toNat) (hED : a.toNat = 0xED → b.toNat ≤ 0x9F)
    (hF0 : a.toNat = 0xF0 → 0x90 ≤ b.toNat) (hF4 : a.toNat = 0xF4 → b.toNat ≤ 0x8F) :
    isSecond a b = true := by
  simp only [isSecond, beq_iff_eq, ← UInt8.toNat_inj, UInt8.le_iff_toNat_le, UInt8.reduceToNat]
  split
  . simp
    omega
  . split
    . simp
      omega
    . split
      . simp
        omega
      . split
        . simp
          omega
        . exact isTrail_of_le h h'

theorem step_one (h : a.toNat < 0x80) : step (a :: rest) = .char (Char.ofNat a.toNat) rest := by
  simp only [step]
  apply if_pos
  rw [UInt8.lt_iff_toNat_lt]
  exact h

theorem step_two (h : 0xC2 ≤ a.toNat) (h' : a.toNat ≤ 0xDF) (hb : isTrail b = true) :
    step (a :: b :: rest) =
      .char (Char.ofNat ((a.toNat - 0xC0) * 0x40 + (b.toNat - 0x80))) rest := by
  simp only [step, UInt8.lt_iff_toNat_lt, UInt8.le_iff_toNat_le, UInt8.reduceToNat,
    Bool.and_eq_true, decide_eq_true_eq]
  rw [if_neg (by omega), if_pos ⟨h, h'⟩, if_pos hb]

theorem step_three (h : 0xE0 ≤ a.toNat) (h' : a.toNat ≤ 0xEF) (hb : isSecond a b = true)
    (hc : isTrail c = true) :
    step (a :: b :: c :: rest) =
      .char (Char.ofNat ((a.toNat - 0xE0) * 0x1000 + (b.toNat - 0x80) * 0x40 + (c.toNat - 0x80)))
        rest := by
  simp only [step, UInt8.lt_iff_toNat_lt, UInt8.le_iff_toNat_le, UInt8.reduceToNat,
    Bool.and_eq_true, decide_eq_true_eq, hb, hc, Bool.not_true, Bool.false_eq_true, ↓reduceIte]
  rw [if_neg (by omega), if_neg (by omega), if_pos ⟨h, h'⟩]

theorem step_four (h : 0xF0 ≤ a.toNat) (h' : a.toNat ≤ 0xF4) (hb : isSecond a b = true)
    (hc : isTrail c = true) (hd : isTrail d = true) :
    step (a :: b :: c :: d :: rest) =
      .char (Char.ofNat ((a.toNat - 0xF0) * 0x40000 + (b.toNat - 0x80) * 0x1000 +
        (c.toNat - 0x80) * 0x40 + (d.toNat - 0x80))) rest := by
  simp only [step, UInt8.lt_iff_toNat_lt, UInt8.le_iff_toNat_le, UInt8.reduceToNat,
    Bool.and_eq_true, decide_eq_true_eq, hb, hc, hd, Bool.not_true, Bool.false_eq_true, ↓reduceIte]
  rw [if_neg (by omega), if_neg (by omega), if_neg (by omega), if_pos ⟨h, h'⟩]

end Steps

theorem toNat_bounds (c : Char) : c.toNat < 0xD800 ∨ 0xDFFF < c.toNat ∧ c.toNat < 0x110000 :=
  c.valid

theorem encodeChar_of_lt {c : Char} (h : c.toNat < 0x80) : encodeChar c = [c.toNat.toUInt8] := by
  unfold encodeChar
  exact if_pos h

theorem le_of_mem_encodeChar {c : Char} (h : ¬ c.toNat < 0x80) : ∀ b ∈ encodeChar c, 0x80 ≤ b.toNat := by
  have hvalid := toNat_bounds c
  have hbyte : ∀ n, 0x80 ≤ n → n < 256 → 0x80 ≤ n.toUInt8.toNat := fun n hn hn' => by
    rw [toNat_toUInt8 hn']
    exact hn
  unfold encodeChar
  simp only [h, if_false]
  split
  . simp only [List.forall_mem_cons]
    exact ⟨hbyte _ (by omega) (by omega), hbyte _ (by omega) (by omega), by simp⟩
  . split
    . simp only [List.forall_mem_cons]
      exact ⟨hbyte _ (by omega) (by omega), hbyte _ (by omega) (by omega), hbyte _ (by omega) (by omega),
        by simp⟩
    . simp only [List.forall_mem_cons]
      exact ⟨hbyte _ (by omega) (by omega), hbyte _ (by omega) (by omega), hbyte _ (by omega) (by omega),
        hbyte _ (by omega) (by omega), by simp⟩

theorem step_encodeChar (c : Char) (rest : List UInt8) :
    step (encodeChar c ++ rest) = .char c rest := by
  have hvalid := toNat_bounds c
  -- The bytes are put together again to the number of the character, whichever their count is.
  simp only [encodeChar]
  split
  . have hbyte := toNat_toUInt8 (n := c.toNat) (by omega)
    rw [List.cons_append, List.nil_append, step_one, hbyte, Char.ofNat_toNat]
    rw [hbyte]
    assumption
  . split
    . have ha := toNat_toUInt8 (n := 0xC0 + c.toNat / 0x40) (by omega)
      have hb := toNat_toUInt8 (n := 0x80 + c.toNat % 0x40) (by omega)
      have htrail := isTrail_of_le (b := (0x80 + c.toNat % 0x40).toUInt8) (by omega) (by omega)
      have hvalue : (0xC0 + c.toNat / 0x40 - 0xC0) * 0x40 + (0x80 + c.toNat % 0x40 - 0x80) =
          c.toNat := by
        omega
      simp only [List.cons_append, List.nil_append]
      rw [step_two (by omega) (by omega) htrail, ha, hb, hvalue, Char.ofNat_toNat]
    . split
      . have ha := toNat_toUInt8 (n := 0xE0 + c.toNat / 0x1000) (by omega)
        have hb := toNat_toUInt8 (n := 0x80 + c.toNat / 0x40 % 0x40) (by omega)
        have hc := toNat_toUInt8 (n := 0x80 + c.toNat % 0x40) (by omega)
        have htrail := isTrail_of_le (b := (0x80 + c.toNat % 0x40).toUInt8) (by omega) (by omega)
        have hsecond : isSecond (0xE0 + c.toNat / 0x1000).toUInt8
            (0x80 + c.toNat / 0x40 % 0x40).toUInt8 = true := by
          apply isSecond_of_le <;> omega
        have hvalue : (0xE0 + c.toNat / 0x1000 - 0xE0) * 0x1000 +
            (0x80 + c.toNat / 0x40 % 0x40 - 0x80) * 0x40 + (0x80 + c.toNat % 0x40 - 0x80) =
              c.toNat := by
          omega
        simp only [List.cons_append, List.nil_append]
        rw [step_three (by omega) (by omega) hsecond htrail, ha, hb, hc, hvalue, Char.ofNat_toNat]
      . have ha := toNat_toUInt8 (n := 0xF0 + c.toNat / 0x40000) (by omega)
        have hb := toNat_toUInt8 (n := 0x80 + c.toNat / 0x1000 % 0x40) (by omega)
        have hc := toNat_toUInt8 (n := 0x80 + c.toNat / 0x40 % 0x40) (by omega)
        have hd := toNat_toUInt8 (n := 0x80 + c.toNat % 0x40) (by omega)
        have hthird := isTrail_of_le (b := (0x80 + c.toNat / 0x40 % 0x40).toUInt8) (by omega)
          (by omega)
        have htrail := isTrail_of_le (b := (0x80 + c.toNat % 0x40).toUInt8) (by omega) (by omega)
        have hsecond : isSecond (0xF0 + c.toNat / 0x40000).toUInt8
            (0x80 + c.toNat / 0x1000 % 0x40).toUInt8 = true := by
          apply isSecond_of_le <;> omega
        have hvalue : (0xF0 + c.toNat / 0x40000 - 0xF0) * 0x40000 +
            (0x80 + c.toNat / 0x1000 % 0x40 - 0x80) * 0x1000 +
            (0x80 + c.toNat / 0x40 % 0x40 - 0x80) * 0x40 + (0x80 + c.toNat % 0x40 - 0x80) =
              c.toNat := by
          omega
        simp only [List.cons_append, List.nil_append]
        rw [step_four (by omega) (by omega) hsecond hthird htrail, ha, hb, hc, hd, hvalue,
          Char.ofNat_toNat]

theorem decodeChars?_of_step {bs rest : List UInt8} {c : Char} (h : step bs = .char c rest) :
    decodeChars? bs = (decodeChars? rest).map (c :: ·) := by
  rw [decodeChars?]
  split
  . next hstep =>
    rw [h] at hstep
    cases hstep
  . next hstep =>
    rw [h] at hstep
    cases hstep
  . next hstep =>
    rw [h] at hstep
    cases hstep
    rfl

theorem decodeCharsLossy_of_step {bs rest : List UInt8} {c : Char} (h : step bs = .char c rest) :
    decodeCharsLossy bs = c :: decodeCharsLossy rest := by
  rw [decodeCharsLossy]
  split
  . next hstep =>
    rw [h] at hstep
    cases hstep
  . next hstep =>
    rw [h] at hstep
    cases hstep
    rfl
  . next hstep =>
    rw [h] at hstep
    cases hstep

theorem decodeChars?_flatMap (cs : List Char) : decodeChars? (cs.flatMap encodeChar) = some cs := by
  induction cs with
  | nil =>
    rw [List.flatMap_nil, decodeChars?]
    rfl
  | cons c cs ih =>
    rw [List.flatMap_cons, decodeChars?_of_step (step_encodeChar c _), ih]
    rfl

theorem decode?_encode (s : String) : decode? (encode s) = some s := by
  unfold decode? encode
  rw [decodeChars?_flatMap, Option.map_some, String.ofList_toList]

theorem encode_inj {s s' : String} : encode s = encode s' ↔ s = s' := by
  refine ⟨fun h => ?_, congrArg encode⟩
  have hdecode := decode?_encode s
  rw [h, decode?_encode] at hdecode
  exact (Option.some.inj hdecode).symm

theorem flatMap_decodeCharsLossy {bs : List UInt8} (h : ∀ b ∈ bs, b < 0x80) :
    (decodeCharsLossy bs).flatMap encodeChar = bs := by
  induction bs with
  | nil =>
    rw [decodeCharsLossy]
    rfl
  | cons b bs ih =>
    have hb : b.toNat < 0x80 := h b List.mem_cons_self
    have hchar : (Char.ofNat b.toNat).toNat = b.toNat := toNat_ofNat (by omega)
    rw [decodeCharsLossy_of_step (step_one hb), List.flatMap_cons]
    rw [ih (fun b hb => h b (List.mem_cons_of_mem _ hb))]
    simp only [encodeChar, hchar, if_pos hb, List.cons_append, List.nil_append]
    rw [toUInt8_of_eq rfl]

theorem encode_decodeLossy {bs : List UInt8} (h : ∀ b ∈ bs, b < 0x80) :
    encode (decodeLossy bs) = bs := by
  unfold encode decodeLossy
  rw [String.toList_ofList, flatMap_decodeCharsLossy h]

section Soundness

variable {a b c d : UInt8} {rest : List UInt8}

theorem toNat_of_isTrail (h : isTrail b = true) : 0x80 ≤ b.toNat ∧ b.toNat ≤ 0xBF := by
  simpa only [isTrail, UInt8.le_iff_toNat_le, Bool.and_eq_true, decide_eq_true_eq, UInt8.reduceToNat] using h

theorem toNat_of_isSecond (h : isSecond a b = true) :
    (0x80 ≤ b.toNat ∧ b.toNat ≤ 0xBF) ∧ (a.toNat = 0xE0 → 0xA0 ≤ b.toNat) ∧
      (a.toNat = 0xED → b.toNat ≤ 0x9F) ∧ (a.toNat = 0xF0 → 0x90 ≤ b.toNat) ∧
        (a.toNat = 0xF4 → b.toNat ≤ 0x8F) := by
  simp only [isSecond, isTrail, beq_iff_eq, ← UInt8.toNat_inj, UInt8.le_iff_toNat_le, UInt8.reduceToNat] at h
  repeat' split at h
  all_goals
    simp only [Bool.and_eq_true, decide_eq_true_eq] at h
    omega

theorem encodeChar_one (h : a.toNat < 0x80) : encodeChar (Char.ofNat a.toNat) = [a] := by
  unfold encodeChar
  rw [toNat_ofNat (by omega)]
  simp only
  rw [if_pos h, toUInt8_of_eq rfl]

theorem encodeChar_two (h : 0xC2 ≤ a.toNat ∧ a.toNat ≤ 0xDF) (hb : isTrail b = true) :
    encodeChar (Char.ofNat ((a.toNat - 0xC0) * 0x40 + (b.toNat - 0x80))) = [a, b] := by
  have hb := toNat_of_isTrail hb
  unfold encodeChar
  rw [toNat_ofNat (by omega)]
  simp only
  rw [if_neg (by omega), if_pos (by omega), toUInt8_of_eq (b := a) (by omega), toUInt8_of_eq (b := b) (by omega)]

theorem encodeChar_three (h : 0xE0 ≤ a.toNat ∧ a.toNat ≤ 0xEF) (hb : isSecond a b = true)
    (hc : isTrail c = true) :
    encodeChar (Char.ofNat ((a.toNat - 0xE0) * 0x1000 + (b.toNat - 0x80) * 0x40 + (c.toNat - 0x80))) =
      [a, b, c] := by
  obtain ⟨hb, hE0, hED, -⟩ := toNat_of_isSecond hb
  have hc := toNat_of_isTrail hc
  unfold encodeChar
  rw [toNat_ofNat (by omega)]
  simp only
  rw [if_neg (by omega), if_neg (by omega), if_pos (by omega), toUInt8_of_eq (b := a) (by omega),
    toUInt8_of_eq (b := b) (by omega), toUInt8_of_eq (b := c) (by omega)]

theorem encodeChar_four (h : 0xF0 ≤ a.toNat ∧ a.toNat ≤ 0xF4) (hb : isSecond a b = true)
    (hc : isTrail c = true) (hd : isTrail d = true) :
    encodeChar (Char.ofNat ((a.toNat - 0xF0) * 0x40000 + (b.toNat - 0x80) * 0x1000 +
      (c.toNat - 0x80) * 0x40 + (d.toNat - 0x80))) = [a, b, c, d] := by
  obtain ⟨hb, -, -, hF0, hF4⟩ := toNat_of_isSecond hb
  have hc := toNat_of_isTrail hc
  have hd := toNat_of_isTrail hd
  unfold encodeChar
  rw [toNat_ofNat (by omega)]
  simp only
  rw [if_neg (by omega), if_neg (by omega), if_neg (by omega), toUInt8_of_eq (b := a) (by omega),
    toUInt8_of_eq (b := b) (by omega), toUInt8_of_eq (b := c) (by omega), toUInt8_of_eq (b := d) (by omega)]

theorem eq_of_step {bs : List UInt8} {ch : Char} (h : step bs = .char ch rest) :
    bs = encodeChar ch ++ rest := by
  unfold step at h
  -- By the lead byte, a character has one byte, or two, three or four.
  split at h
  . cases h
  . next a rest' =>
    simp only [UInt8.lt_iff_toNat_lt, UInt8.le_iff_toNat_le, UInt8.reduceToNat, Bool.and_eq_true,
      decide_eq_true_eq, Bool.not_eq_true'] at h
    split at h
    . next ha =>
      obtain ⟨rfl, rfl⟩ := Step.char.inj h
      rw [encodeChar_one ha]
      rfl
    split at h
    . next ha =>
      split at h
      . split at h
        . next hb =>
          obtain ⟨rfl, rfl⟩ := Step.char.inj h
          rw [encodeChar_two ha hb]
          rfl
        . cases h
      . cases h
    split at h
    . next ha =>
      split at h
      . split at h
        . cases h
        . next hb =>
          split at h
          . cases h
          . next hc =>
            obtain ⟨rfl, rfl⟩ := Step.char.inj h
            rw [encodeChar_three ha (by simpa using hb) (by simpa using hc)]
            rfl
      . split at h <;> cases h
      . cases h
    split at h
    . next ha =>
      split at h
      . split at h
        . cases h
        . next hb =>
          split at h
          . cases h
          . next hc =>
            split at h
            . cases h
            . next hd =>
              obtain ⟨rfl, rfl⟩ := Step.char.inj h
              rw [encodeChar_four ha (by simpa using hb) (by simpa using hc) (by simpa using hd)]
              rfl
      . split at h
        . cases h
        . split at h <;> cases h
      . split at h <;> cases h
      . cases h
    . cases h

theorem eq_nil_of_step {bs : List UInt8} (h : step bs = .done) : bs = [] := by
  unfold step at h
  repeat' split at h
  all_goals first | rfl | cases h

theorem flatMap_of_decodeChars? {bs : List UInt8} {cs : List Char} (h : decodeChars? bs = some cs) :
    cs.flatMap encodeChar = bs := by
  fun_induction decodeChars? bs generalizing cs with
  | case1 bs hstep =>
    cases h
    rw [eq_nil_of_step hstep]
    rfl
  | case2 => cases h
  | case3 bs ch rest hstep ih =>
    obtain ⟨cs', hrest, rfl⟩ := Option.map_eq_some_iff.mp h
    rw [List.flatMap_cons, ih hrest]
    exact (eq_of_step hstep).symm

theorem decode?_eq_some_iff {bs : List UInt8} {s : String} : decode? bs = some s ↔ bs = encode s := by
  constructor
  . intro h
    obtain ⟨cs, hcs, rfl⟩ := Option.map_eq_some_iff.mp h
    unfold encode
    rw [String.toList_ofList, flatMap_of_decodeChars? hcs]
  . rintro rfl
    exact decode?_encode s

end Soundness

end ClusterRegistration.Text.Utf8
