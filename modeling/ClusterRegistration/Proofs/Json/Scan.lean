import ClusterRegistration.Json.Numeral
import ClusterRegistration.Json.Reader
import ClusterRegistration.Proofs.Record.Alike

namespace ClusterRegistration.Json

namespace Reader

theorem length_of_scanWord (ws bs : List UInt8) (a : Unit) (rest : List UInt8)
    (h : scanWord ws bs = .ok (a, rest)) : rest.length ≤ bs.length := by
  induction ws generalizing bs with
  | nil =>
    cases h
    exact Nat.le_refl _
  | cons w ws ih =>
    cases bs with
    | nil => cases h
    | cons b bs =>
      unfold scanWord at h
      split at h
      . exact Nat.le_succ_of_le (ih bs h)
      . cases h

theorem length_of_scanUnit {bs : List UInt8} {n : Nat} {rest : List UInt8}
    (h : scanUnit bs = .ok (n, rest)) : rest.length + 4 = bs.length := by
  unfold scanUnit at h
  split at h
  . split at h
    . cases h
      rfl
    . cases h
  . cases h

theorem scanUnit_of_scanUnicode {bs : List UInt8} {ch : Char} {rest : List UInt8}
    (h : scanUnicode bs = .ok (ch, rest)) :
    ∃ n rest₁, scanUnit bs = .ok (n, rest₁) ∧ (rest = rest₁ ∨
      ∃ rest₂ n', rest₁ = 0x5C :: 0x75 :: rest₂ ∧ scanUnit rest₂ = .ok (n', rest)) := by
  unfold scanUnicode at h
  obtain ⟨⟨n, rest₁⟩, hunit, h⟩ := exists_of_bind_eq_ok h
  refine ⟨n, rest₁, hunit, ?_⟩
  simp only at h
  split at h
  . cases h
  . split at h
    . split at h
      . cases h
      . next b rest₁ =>
        split at h
        . cases h
        . next hb =>
          split at h
          . cases h
          . next b' rest₂ =>
            split at h
            . cases h
            . next hb' =>
              obtain ⟨⟨n', rest₃⟩, hunit', h⟩ := exists_of_bind_eq_ok h
              split at h
              . cases h
              . obtain ⟨-, rfl⟩ := Prod.mk.inj (Except.ok.inj h)
                rw [Bool.not_eq_true, bne_eq_false_iff_eq] at hb hb'
                subst hb hb'
                exact .inr ⟨rest₂, n', rfl, hunit'⟩
    . cases h
      exact .inl rfl

theorem length_of_skipText (n : Nat) (bs : List UInt8) (a : Unit) (rest : List UInt8)
    (h : skipText n bs = .ok (a, rest)) : rest.length ≤ bs.length := by
  induction n generalizing bs with
  | zero => cases h
  | succ n ih =>
    cases bs with
    | nil => cases h
    | cons b bs =>
      unfold skipText at h
      split at h
      . cases h
        exact Nat.le_succ _
      . split at h
        . cases bs with
          | nil => cases h
          | cons e bs =>
            simp only at h
            split at h
            . obtain ⟨⟨m, rest₁⟩, hunit, h⟩ := exists_of_bind_eq_ok h
              have hlength := length_of_scanUnit hunit
              have := ih rest₁ h
              simp only [List.length_cons]
              omega
            . split at h
              . cases h
              . have := ih bs h
                simp only [List.length_cons]
                omega
        . split at h
          . cases h
          . exact Nat.le_succ_of_le (ih bs h)

theorem scanTextBytes_eq_ok {n : Nat} {bs content rest : List UInt8}
    (h : scanTextBytes (n + 1) bs = .ok (content, rest)) :
    bs = 0x22 :: rest ∨ ∃ bs' content', scanTextBytes n bs' = .ok (content', rest) ∧
      ((∃ b, bs = b :: bs' ∧ b ≠ 0x22 ∧ b ≠ 0x5C ∧ ¬ b < 0x20) ∨
        (∃ e, bs = 0x5C :: e :: bs' ∧ e ≠ 0x75 ∧ simpleEscape? e ≠ none) ∨
        ∃ c bs₁, bs = 0x5C :: 0x75 :: bs₁ ∧ scanUnicode bs₁ = .ok (c, bs')) := by
  cases bs with
  | nil => cases h
  | cons b bs =>
    unfold scanTextBytes at h
    split at h
    . next hquote =>
      cases h
      exact .inl (by rw [eq_of_beq hquote])
    . next hquote =>
      right
      split at h
      . next hescape =>
        cases eq_of_beq hescape
        cases bs with
        | nil => cases h
        | cons e bs =>
          dsimp only at h
          split at h
          . next hunicode =>
            cases eq_of_beq hunicode
            obtain ⟨⟨c, bs'⟩, hchar, h⟩ := exists_of_bind_eq_ok h
            obtain ⟨⟨content', rest'⟩, hcontent, h⟩ := exists_of_bind_eq_ok h
            cases h
            exact ⟨bs', content', hcontent, .inr (.inr ⟨c, bs, rfl, hchar⟩)⟩
          . next hunicode =>
            split at h
            . cases h
            . next hsimple =>
              obtain ⟨⟨content', rest'⟩, hcontent, h⟩ := exists_of_bind_eq_ok h
              cases h
              exact ⟨bs, content', hcontent, .inr (.inl ⟨e, rfl, by simpa using hunicode, by simp [hsimple]⟩)⟩
      . next hescape =>
        split at h
        . cases h
        . next hcontrol =>
          obtain ⟨⟨content', rest'⟩, hcontent, h⟩ := exists_of_bind_eq_ok h
          cases h
          exact ⟨bs, content', hcontent, .inl ⟨b, rfl, by simpa using hquote, by simpa using hescape, hcontrol⟩⟩

theorem skipText_copy {m : Nat} {b : UInt8} {bs : List UInt8} (hquote : b ≠ 0x22) (hescape : b ≠ 0x5C)
    (hcontrol : ¬ b < 0x20) : skipText (m + 1) (b :: bs) = skipText m bs := by
  conv_lhs => unfold skipText
  rw [if_neg (by simp [hquote]), if_neg (by simp [hescape]), if_neg hcontrol]

theorem skipText_escape {m : Nat} {e : UInt8} {bs : List UInt8} (hunicode : e ≠ 0x75)
    (hsimple : simpleEscape? e ≠ none) : skipText (m + 1) (0x5C :: e :: bs) = skipText m bs := by
  conv_lhs => unfold skipText
  rw [if_neg (by decide), if_pos (by decide)]
  dsimp only
  rw [if_neg (by simp [hunicode])]
  cases hescape : simpleEscape? e with
  | none => exact absurd hescape hsimple
  | some b => rfl

theorem skipText_unit {m u : Nat} {bs bs' : List UInt8} (hunit : scanUnit bs = .ok (u, bs')) :
    skipText (m + 1) (0x5C :: 0x75 :: bs) = skipText m bs' := by
  show (scanUnit bs >>= fun p => skipText m p.2) = _
  rw [hunit]
  rfl

theorem skipText_of_scanTextBytes {n m : Nat} {bs content rest : List UInt8}
    (h : scanTextBytes n bs = .ok (content, rest)) (hm : bs.length < m) :
    skipText m bs = .ok ((), rest) := by
  induction n generalizing bs content m with
  | zero => cases h
  | succ n ih =>
    obtain ⟨m, rfl⟩ : ∃ m', m = m' + 1 := ⟨m - 1, by omega⟩
    rcases scanTextBytes_eq_ok h with rfl | ⟨bs', content', hcontent, ⟨b, rfl, hquote, hescape, hcontrol⟩ |
      ⟨e, rfl, hunicode, hsimple⟩ | ⟨ch, bs₁, rfl, hchar⟩⟩
    . rfl
    . rw [skipText_copy hquote hescape hcontrol]
      exact ih hcontent (Nat.lt_of_succ_lt_succ hm)
    . rw [skipText_escape hunicode hsimple]
      rw [List.length_cons, List.length_cons] at hm
      exact ih hcontent (by omega)
    . obtain ⟨u, bs₂, hunit, hrest⟩ := scanUnit_of_scanUnicode hchar
      have hlength := length_of_scanUnit hunit
      rw [List.length_cons, List.length_cons] at hm
      rw [skipText_unit hunit]
      rcases hrest with rfl | ⟨bs₃, u', rfl, hunit'⟩
      . exact ih hcontent (by omega)
      . -- The second half of a pair of surrogates is an escape of its own.
        have hlength' := length_of_scanUnit hunit'
        rw [List.length_cons, List.length_cons] at hlength
        obtain ⟨m, rfl⟩ : ∃ m', m = m' + 1 := ⟨m - 1, by omega⟩
        rw [skipText_unit hunit']
        exact ih hcontent (by omega)

theorem skipText_of_scanText {bs : List UInt8} {s : String} {rest : List UInt8}
    (h : scanText bs = .ok (s, rest)) : skipText (bs.length + 1) bs = .ok ((), rest) := by
  obtain ⟨⟨content, rest₁⟩, hcontent, h⟩ := exists_of_bind_eq_ok h
  simp only at h
  split at h
  . cases h
    exact skipText_of_scanTextBytes hcontent (by omega)
  . cases h

end Reader

namespace Numeral

theorem takeWhile_ne_nil {b : UInt8} {bs : List UInt8} (h : isDigit b = true) :
    ((b :: bs).takeWhile isDigit).isEmpty = false := by
  rw [List.takeWhile_cons_of_pos h]
  rfl

theorem skipDigits_of_isDigit {b : UInt8} {bs : List UInt8} (h : isDigit b = true) :
    skipDigits (b :: bs) = .ok ((), (b :: bs).dropWhile isDigit) := by
  unfold skipDigits
  rw [takeWhile_ne_nil h]
  rfl

theorem skipDigits_of_withExponent {positive : Bool} {s : Nat} {shift : Int} {negative : Bool}
    {b : UInt8} {bs rest : List UInt8} {n : Number}
    (h : (if isDigit b then do
        let n ← withExponent positive s shift negative ((b :: bs).takeWhile isDigit)
        pure (n, (b :: bs).dropWhile isDigit)
      else .error .invalidNumber) = Except.ok (n, rest)) :
    skipDigits (b :: bs) = .ok ((), rest) := by
  split at h
  . next hdigit =>
    obtain ⟨n', -, h⟩ := exists_of_bind_eq_ok h
    cases h
    exact skipDigits_of_isDigit hdigit
  . cases h

theorem skipExponent_of_scanExponent {positive : Bool} {s : Nat} {shift : Int} {mark : UInt8}
    {bs rest : List UInt8} {n : Number} (hmark : isExponentMark mark = true)
    (h : scanExponent positive s shift bs = .ok (n, rest)) :
    skipExponent (mark :: bs) = .ok ((), rest) := by
  unfold skipExponent
  unfold scanExponent at h
  simp only [hmark, if_true]
  split
  . next bs =>
    cases bs with
    | nil => cases h
    | cons b bs => exact skipDigits_of_withExponent h
  . next bs =>
    cases bs with
    | nil => cases h
    | cons b bs => exact skipDigits_of_withExponent h
  . next hplus hminus =>
    cases bs with
    | nil => cases h
    | cons b bs =>
      split at h
      . next heq =>
        split at heq
        . next heq' => exact absurd heq' (hplus _)
        . next heq' => exact absurd heq' (hminus _)
        . cases heq
          exact skipDigits_of_withExponent h

def skipTail (bs : List UInt8) : Except Malformation (Unit × List UInt8) :=
  match bs with
  | 46 :: rest => do
    let ((), rest) ← skipDigits rest
    skipExponent rest
  | _ => skipExponent bs

theorem skipExponent_of_not_mark {b : UInt8} {bs : List UInt8} (h : isExponentMark b = false) :
    skipExponent (b :: bs) = .ok ((), b :: bs) := by
  unfold skipExponent
  simp only [h]
  rfl

theorem rest_of_plain {positive : Bool} {s : Significand} {dropped : Nat} {bs rest : List UInt8}
    {n : Number} (h : scanTail.plain positive s dropped bs = .ok (n, rest)) : rest = bs := by
  unfold scanTail.plain at h
  split at h
  . cases h
    rfl
  . obtain ⟨f, -, h⟩ := exists_of_bind_eq_ok h
    cases h
    rfl

theorem skipTail_of_scanTail {positive : Bool} {s : Significand} {dropped : Nat}
    {bs rest : List UInt8} {n : Number} (h : scanTail positive s dropped bs = .ok (n, rest)) :
    skipTail bs = .ok ((), rest) := by
  unfold scanTail at h
  unfold skipTail
  split at h
  . next bs =>
    simp only at h ⊢
    split at h
    . cases h
    . next hfraction =>
      have hskip : skipDigits bs = .ok ((), bs.dropWhile isDigit) := by
        unfold skipDigits
        rw [if_neg hfraction]
      rw [hskip]
      -- Of the fraction only the value was of interest; its digits are dropped either way.
      show skipExponent (bs.dropWhile isDigit) = .ok ((), rest)
      split at h
      . next b rest' hrest =>
        rw [hrest]
        split at h
        . next hmark => exact skipExponent_of_scanExponent hmark h
        . next hmark =>
          obtain ⟨f, -, h⟩ := exists_of_bind_eq_ok h
          cases h
          rw [hrest]
          exact skipExponent_of_not_mark (Bool.not_eq_true _ ▸ hmark)
      . next hrest =>
        obtain ⟨f, -, h⟩ := exists_of_bind_eq_ok h
        cases h
        rw [hrest]
        rfl
  . next b bs hpoint =>
    split
    . next heq => exact (hpoint (List.cons.inj heq).1).elim
    . split at h
      . next hmark => exact skipExponent_of_scanExponent hmark h
      . next hmark =>
        rw [rest_of_plain h]
        exact skipExponent_of_not_mark (Bool.not_eq_true _ ▸ hmark)
  . rw [rest_of_plain h]
    rfl

theorem skip_of_scan {positive : Bool} {bs rest : List UInt8} {n : Number}
    (h : scan positive bs = .ok (n, rest)) : skip bs = .ok ((), rest) := by
  cases bs with
  | nil => cases h
  | cons b bs =>
    unfold scan at h
    simp only at h
    split at h
    . next hzero =>
      rw [beq_iff_eq] at hzero
      subst hzero
      cases bs with
      | nil => exact skipTail_of_scanTail h
      | cons d bs =>
        simp only at h
        split at h
        . cases h
        . next hdigit =>
          have htail := skipTail_of_scanTail h
          have hskip : skip (48 :: d :: bs) = skipTail (d :: bs) := by
            unfold skip
            simp only [hdigit]
            rfl
          rw [hskip]
          exact htail
    . next hzero =>
      split at h
      . next hdigit =>
        have hskip : skip (b :: bs) = skipTail ((b :: bs).dropWhile isDigit) := by
          unfold skip
          split
          . next heq =>
            rw [(List.cons.inj heq).1] at hzero
            exact absurd rfl hzero
          . rw [skipDigits_of_isDigit hdigit]
            rfl
        rw [hskip]
        exact skipTail_of_scanTail h
      . cases h

theorem length_of_skipDigits {bs rest : List UInt8} {a : Unit} (h : skipDigits bs = .ok (a, rest)) :
    rest.length ≤ bs.length := by
  unfold skipDigits at h
  split at h
  . cases h
  . cases h
    exact (List.dropWhile_suffix isDigit).length_le

theorem length_of_skipExponent {bs rest : List UInt8} {a : Unit}
    (h : skipExponent bs = .ok (a, rest)) : rest.length ≤ bs.length := by
  unfold skipExponent at h
  split at h
  . split at h
    . split at h
      . have := length_of_skipDigits h
        simp only [List.length_cons]
        omega
      . have := length_of_skipDigits h
        simp only [List.length_cons]
        omega
      . have := length_of_skipDigits h
        simp only [List.length_cons]
        omega
    . cases h
      exact Nat.le_refl _
  . cases h
    exact Nat.le_refl _

theorem length_of_skipTail {bs rest : List UInt8} {a : Unit} (h : skipTail bs = .ok (a, rest)) :
    rest.length ≤ bs.length := by
  unfold skipTail at h
  split at h
  . obtain ⟨⟨u, rest₁⟩, hdigits, h⟩ := exists_of_bind_eq_ok h
    have hfraction := length_of_skipDigits hdigits
    have hexponent := length_of_skipExponent h
    simp only [List.length_cons]
    omega
  . exact length_of_skipExponent h

theorem length_of_skip (bs : List UInt8) (a : Unit) (rest : List UInt8)
    (h : skip bs = .ok (a, rest)) : rest.length ≤ bs.length := by
  unfold skip at h
  dsimp only at h
  split at h
  . split at h
    . cases h
    . exact Nat.le_succ_of_le (length_of_skipTail h)
  . obtain ⟨⟨u, rest₁⟩, hdigits, htail⟩ := exists_of_bind_eq_ok h
    exact Nat.le_trans (length_of_skipTail htail) (length_of_skipDigits hdigits)

end Numeral

end ClusterRegistration.Json
