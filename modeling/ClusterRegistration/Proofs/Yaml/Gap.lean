import ClusterRegistration.Proofs.Yaml.Cursor
import ClusterRegistration.Yaml.Token.Scalar

namespace ClusterRegistration.Yaml

open Cursor

namespace Scan.Gap

variable {check : Cursor → Except SyntaxError Unit} {fuel n : Nat} {g : Gap} {c : Cursor}
  {rest : List Char}

theorem scan_of_solid (hrest : Solid c.rest) : scan check fuel g c = .ok (g, c) := by
  cases fuel with
  | zero => rfl
  | succ fuel =>
    unfold scan
    cases hcs : c.rest with
    | nil => rfl
    | cons a as =>
      rw [hcs] at hrest
      have ha : isBlankOrBreak a = false := hrest
      rw [isBlankOrBreak, Bool.or_eq_false_iff] at ha
      simp only [ha.1, ha.2, Bool.false_eq_true, ↓reduceIte]

theorem scan_blanks (hrest : c.rest = Text.blanks n ++ rest) (hsolid : Solid rest) (hfuel : n ≤ fuel)
    (hg : g.afterBreak = false) :
    scan check fuel g c =
      .ok ({ g with blanks := g.blanks ++ Text.blanks n }, pass (Text.blanks n) c) := by
  induction n generalizing g c fuel with
  | zero =>
    have hrest : c.rest = rest := hrest
    rw [← hrest] at hsolid
    rw [scan_of_solid hsolid]
    simp [Text.blanks]
  | succ n ih =>
    rw [blanks_succ_append] at hrest
    cases fuel with
    | zero => omega
    | succ fuel =>
      obtain ⟨blanks, first, more, afterBreak⟩ := g
      cases hg
      have hblank : isBlank ' ' = true := by decide
      unfold scan
      simp only [hrest, hblank, ↓reduceIte, Bool.false_eq_true]
      rw [ih (rest_skip hrest) (Nat.le_of_succ_le_succ hfuel) rfl]
      simp only [List.append_assoc]
      rfl

theorem scan_indentation (hrest : c.rest = Text.blanks n ++ rest) (hsolid : Solid rest)
    (hfuel : n ≤ fuel) (hg : g.afterBreak = true)
    (hcheck : ∀ c : Cursor, c.is (· == '\t') = false → check c = .ok ()) :
    scan check fuel g c = .ok (g, pass (Text.blanks n) c) := by
  induction n generalizing c fuel with
  | zero =>
    have hrest : c.rest = rest := hrest
    rw [← hrest] at hsolid
    rw [scan_of_solid hsolid]
    rfl
  | succ n ih =>
    rw [blanks_succ_append] at hrest
    cases fuel with
    | zero => omega
    | succ fuel =>
      have hblank : isBlank ' ' = true := by decide
      have hspace : c.is (· == '\t') = false := by
        rw [is_of_rest _ hrest]
        decide
      unfold scan
      simp only [hrest, hblank, hg, ↓reduceIte]
      rw [hcheck c hspace]
      show scan check fuel g c.skip = _
      rw [ih (rest_skip hrest) (by omega)]
      rfl

variable {b : Char}

theorem scan_break (hrest : c.rest = b :: rest) (hb : isBreak b = true) (hg : g.afterBreak = false) :
    scan check (fuel + 1) g c =
      scan check fuel { g with blanks := [], first := [breakChar b], afterBreak := true }
        (pass [b] c) := by
  conv =>
    lhs
    unfold scan
  simp only [hrest, isBlank_of_isBreak hb, hb, hg, ↓reduceIte, Bool.false_eq_true,
    takeBreak_of_isBreak hrest hb]

theorem scan_another_break (hrest : c.rest = b :: rest) (hb : isBreak b = true)
    (hg : g.afterBreak = true) :
    scan check (fuel + 1) g c =
      scan check fuel { g with more := g.more ++ [breakChar b] } (pass [b] c) := by
  conv =>
    lhs
    unfold scan
  simp only [hrest, isBlank_of_isBreak hb, hb, hg, ↓reduceIte, Bool.false_eq_true,
    takeBreak_of_isBreak hrest hb]

theorem scan_more_breaks {bs : List Char} (hrest : c.rest = bs ++ rest)
    (hbs : ∀ b ∈ bs, isKept b = true) (hg : g.afterBreak = true) :
    scan check (bs.length + fuel) g c =
      scan check fuel { g with more := g.more ++ bs } (pass bs c) := by
  induction bs generalizing g c with
  | nil => simp
  | cons b bs ih =>
    have hb := hbs b List.mem_cons_self
    have hfuel : (b :: bs).length + fuel = (bs.length + fuel) + 1 := by
      rw [List.length_cons]
      omega
    have hrest' : (pass [b] c).rest = bs ++ rest := by
      apply @rest_pass [b] _ _ hrest
      apply not_return_mem_kept
      simpa using hb
    rw [hfuel, scan_another_break hrest (isBreak_of_isKept hb) hg, breakChar_of_isKept hb]
    rw [ih hrest' (fun a ha => hbs a (List.mem_cons_of_mem b ha))]
    . rw [List.append_assoc, List.singleton_append]
      rfl
    . exact hg

theorem scan_breaks {bs : List Char} (hrest : c.rest = (b :: bs) ++ (Text.blanks n ++ rest))
    (hbs : ∀ a ∈ b :: bs, isKept a = true) (hsolid : Solid rest)
    (hcheck : ∀ c : Cursor, c.is (· == '\t') = false → check c = .ok ()) :
    scan check (((b :: bs) ++ (Text.blanks n ++ rest)).length + 1) empty c =
      .ok (⟨[], [b], bs, true⟩, pass (Text.blanks n) (pass (b :: bs) c)) := by
  have hb := hbs b List.mem_cons_self
  have hmore : (pass [b] c).rest = bs ++ (Text.blanks n ++ rest) := by
    apply @rest_pass [b] _ _ hrest
    apply not_return_mem_kept
    simpa using hb
  have hlength : ((b :: bs) ++ (Text.blanks n ++ rest)).length =
      bs.length + (1 + (Text.blanks n ++ rest).length) := by
    rw [List.length_append, List.length_cons]
    omega
  rw [scan_break hrest (isBreak_of_isKept hb) rfl, breakChar_of_isKept hb, hlength]
  rw [scan_more_breaks hmore (fun a ha => hbs a (List.mem_cons_of_mem b ha)) rfl]
  apply scan_indentation (rest_pass hrest (not_return_mem_kept hbs)) hsolid _ rfl hcheck
  rw [List.length_append, length_blanks]
  omega

end Scan.Gap

end ClusterRegistration.Yaml
