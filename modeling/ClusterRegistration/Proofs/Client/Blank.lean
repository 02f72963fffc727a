import ClusterRegistration.Proofs.Client.Place
import ClusterRegistration.Text.Blank

namespace ClusterRegistration

namespace Text

theorem exists_append_trimBy {α : Type} (p : α → Bool) (cs : List α) :
    ∃ front back, cs = front ++ (trimBy p cs ++ back) ∧ (∀ c ∈ front, p c = true) ∧
      ∀ c ∈ back, p c = true := by
  refine ⟨cs.takeWhile p, ((cs.dropWhile p).reverse.takeWhile p).reverse, ?_,
    fun c hc => List.mem_takeWhile_imp hc, fun c hc => List.mem_takeWhile_imp (List.mem_reverse.mp hc)⟩
  unfold trimBy
  rw [← List.reverse_append, List.takeWhile_append_dropWhile, List.reverse_reverse,
    List.takeWhile_append_dropWhile]

theorem exists_append_trim (s : String) :
    ∃ front back, s.toList = front ++ ((trim s).toList ++ back) ∧ (∀ c ∈ front, isBlank c = true) ∧
      ∀ c ∈ back, isBlank c = true := by
  unfold trim
  rw [String.toList_ofList]
  exact exists_append_trimBy isBlank s.toList

theorem not_isBlank_of_visible {c : Char} (h : 0x21 ≤ c.toNat ∧ c.toNat ≤ 0x7E) : isBlank c = false := by
  simp only [isBlank, Bool.or_eq_false_iff, Bool.and_eq_false_iff, decide_eq_false_iff_not,
    beq_eq_false_iff_ne]
  omega

end Text

namespace Uri

open Text

variable {c : Char}

theorem not_isBlank_of_isPathChar (h : isPathChar c = true) : isBlank c = false := by
  apply not_isBlank_of_visible
  simp only [isPathChar, Bool.or_eq_true, Bool.and_eq_true, decide_eq_true_eq, beq_iff_eq] at h
  omega

theorem not_isBlank_of_isQueryChar (h : isQueryChar c = true) : isBlank c = false := by
  apply not_isBlank_of_visible
  simp only [isQueryChar, Bool.or_eq_true, Bool.and_eq_true, decide_eq_true_eq, beq_iff_eq] at h
  omega

theorem not_isBlank_of_isAlphanum (h : c.isAlphanum = true) : isBlank c = false := by
  apply not_isBlank_of_isPathChar
  apply isPathChar_of_isDnsChar
  rw [isDnsChar, h]
  rfl

theorem not_isBlank_of_isAuthorityChar (h : isAuthorityChar c = true) : isBlank c = false := by
  rw [isAuthorityChar, Bool.or_eq_true, decide_eq_true_iff] at h
  rcases h with h | h
  . exact not_isBlank_of_isAlphanum h
  . have hall : ['!', '$', '&', '\'', '(', ')', '*', '+', ',', '-', '.', ';', '=', '_', '~'].all
        (fun c => !isBlank c) = true := by
      decide
    simpa using List.all_eq_true.mp hall c h

theorem AuthorityScan.not_isBlank_of_step {s s' : AuthorityScan} (h : s.step c = .ok s') :
    isBlank c = false := by
  have hspecial : ∀ d : Char, isBlank d = false → (c == d) = true → isBlank c = false := by
    intro d hd hc
    rw [eq_of_beq hc]
    exact hd
  unfold step at h
  dsimp only at h
  split at h
  . next hc => exact hspecial ':' (by decide) hc
  split at h
  . next hc => exact hspecial '[' (by decide) hc
  split at h
  . next hc => exact hspecial ']' (by decide) hc
  split at h
  . next hc => exact hspecial '@' (by decide) hc
  split at h
  . next hc => exact hspecial '%' (by decide) hc
  split at h
  . next hc => exact not_isBlank_of_isAuthorityChar hc
  . cases h

theorem AuthorityScan.not_isBlank_of_foldlM {cs : List Char} {s s' : AuthorityScan}
    (h : cs.foldlM step s = .ok s') : ∀ c ∈ cs, isBlank c = false := by
  -- The scan fails at the first character that an authority can not have.
  induction cs generalizing s with
  | nil => exact fun c hc => absurd hc List.not_mem_nil
  | cons c cs ih =>
    rw [List.foldlM_cons] at h
    obtain ⟨s₁, hstep, hrest⟩ := exists_of_bind_eq_ok h
    exact List.forall_mem_cons.mpr ⟨not_isBlank_of_step hstep, ih hrest⟩

theorem toLower_of_isBlank (h : isBlank c = true) : c.toLower = c := by
  unfold Char.toLower
  split
  . next hupper =>
    have hupper : c.isUpper = true := decide_eq_true hupper
    have halphanum : c.isAlphanum = true := by
      show (c.isUpper || c.isLower || c.isDigit) = true
      rw [hupper, Bool.true_or, Bool.true_or]
    rw [not_isBlank_of_isAlphanum halphanum] at h
    cases h
  . rfl

theorem not_isBlank_of_toLower_mem (h : c.toLower ∈ "https://".toList) : isBlank c = false := by
  rw [Bool.eq_false_iff]
  intro hblank
  rw [toLower_of_isBlank hblank] at h
  have hall : "https://".toList.all (fun c => !isBlank c) = true := by decide
  have hvisible := List.all_eq_true.mp hall c h
  rw [hblank] at hvisible
  cases hvisible

variable {cs authority path tail : List Char}

theorem Divided.takeWhile_eq (h : Divided cs authority path tail) :
    cs.takeWhile (· != '#') =
      cs.take 8 ++ (authority ++ (path ++ tail.takeWhile (· != '#'))) := by
  have hscheme : ∀ c ∈ cs.take 8, (c != '#') = true := by
    intro c hc
    rw [bne_iff_ne]
    rintro rfl
    have hmem : '#'.toLower ∈ "https://".toList := h.scheme ▸ List.mem_map_of_mem hc
    revert hmem
    decide
  have hauthority : ∀ c ∈ authority, (c != '#') = true := by
    intro c hc
    rw [bne_iff_ne]
    rintro rfl
    cases h.authority_ends _ hc
  have hpath : ∀ c ∈ path, (c != '#') = true := by
    intro c hc
    have hplain := plain_of_isPathChar (h.path_valid c hc)
    rw [Bool.and_eq_true] at hplain
    exact hplain.2
  conv_lhs => rw [← List.take_append_drop 8 cs, h.rest]
  rw [List.takeWhile_append_of_pos hscheme, List.takeWhile_append_of_pos hauthority,
    List.takeWhile_append_of_pos hpath]

theorem Divided.not_isBlank (h : Divided cs authority path tail) :
    ∀ c ∈ cs.takeWhile (· != '#'), isBlank c = false := by
  intro c hc
  rw [h.takeWhile_eq, List.mem_append, List.mem_append, List.mem_append] at hc
  rcases hc with hc | hc | hc | hc
  . apply not_isBlank_of_toLower_mem
    rw [← h.scheme]
    exact List.mem_map_of_mem hc
  . obtain ⟨s, hs, -⟩ := h.complete
    exact AuthorityScan.not_isBlank_of_foldlM hs c hc
  . exact not_isBlank_of_isPathChar (h.path_valid c hc)
  . cases h.tail_valid with
    | nothing => cases hc
    | fragment cs' => cases hc
    | @query cs' hquery =>
      rcases List.mem_cons.mp hc with rfl | hc
      . rfl
      . exact not_isBlank_of_isQueryChar (hquery c hc)

theorem Divided.append (h : Divided cs authority path tail) (hfragment : '#' ∈ cs) (back : List Char) :
    Divided (cs ++ back) authority path (tail ++ back) := by
  have htext : cs ++ back = cs.take 8 ++ (authority ++ (path ++ (tail ++ back))) := by
    conv_lhs => rw [← List.take_append_drop 8 cs, h.rest]
    simp only [List.append_assoc]
  have hmem : '#' ∈ tail := h.mem_tail hfragment (by decide) rfl rfl
  rw [htext]
  refine h.replace h.path_begins h.path_valid ?_
  cases h.tail_valid with
  | nothing => cases hmem
  | fragment cs' => exact .fragment (cs' ++ back)
  | @query cs' hquery =>
    have hquery' : ∀ c ∈ (cs' ++ back).takeWhile (· != '#'), isQueryChar c = true := by
      rw [takeWhile_append_of_mem (p := (· != '#')) (List.mem_of_ne_of_mem (by decide) hmem) rfl]
      exact hquery
    exact .query hquery'

theorem splitScheme_of_isBlank (h : isBlank c = true) (cs : List Char) :
    splitScheme (c :: cs) = .ok (none, c :: cs) := by
  have hscheme : ∀ n (text : List Char), text.head? = some 'h' →
      ((c :: cs).take (n + 1)).map Char.toLower ≠ text := by
    rintro n text htext rfl
    have hc : c.toLower = 'h' := Option.some.inj htext
    rw [toLower_of_isBlank h] at hc
    rw [hc] at h
    cases h
  have hname : isSchemeChar c = false := by
    rw [Bool.eq_false_iff]
    intro hname
    simp only [isSchemeChar, Bool.or_eq_true, beq_iff_eq] at hname
    rcases hname with (((hname | rfl) | rfl) | rfl) | rfl
    . rw [not_isBlank_of_isAlphanum hname] at h
      cases h
    all_goals cases h
  unfold splitScheme
  rw [if_neg (hscheme 6 _ rfl), if_neg (hscheme 7 _ rfl), List.takeWhile_cons_of_neg (by simp [hname])]
  dsimp only [List.length_nil, List.drop_zero]
  split
  . next rest hcs =>
    obtain ⟨rfl, -⟩ := List.cons.inj hcs
    cases h
  . rfl

theorem parse_of_isBlank {s : String} {d : Char} (hs : s.toList = c :: d :: cs) (h : isBlank c = true)
    (uri : Uri) : parse s ≠ .ok uri := by
  have hslash : c ≠ '/' := by
    rintro rfl
    cases h
  intro hparse
  by_cases hlength : s.utf8ByteSize ≤ maxLength
  . rw [parse_of_length hs hslash hlength, hs] at hparse
    unfold parseFull at hparse
    rw [splitScheme_of_isBlank h] at hparse
    obtain ⟨_, hnone, hparse⟩ := exists_of_bind_eq_ok hparse
    cases hnone
    obtain ⟨⟨authority, rest⟩, hauthority, -⟩ := exists_of_bind_eq_ok hparse
    obtain ⟨htext, -, hbegins, s', hscan, -⟩ := splitAuthority_eq_ok hauthority
    cases authority with
    | nil =>
      have hends : endsAuthority c = true := hbegins c (by rw [← List.nil_append rest, ← htext]; rfl)
      simp only [endsAuthority, Bool.or_eq_true, beq_iff_eq] at hends
      rcases hends with (rfl | rfl) | rfl <;> cases h
    | cons c' authority =>
      obtain ⟨rfl, -⟩ := List.cons.inj htext
      rw [AuthorityScan.not_isBlank_of_foldlM hscan c List.mem_cons_self] at h
      cases h
  . unfold parse at hparse
    rw [if_pos (Nat.lt_of_not_le hlength)] at hparse
    cases hparse

end Uri

end ClusterRegistration
