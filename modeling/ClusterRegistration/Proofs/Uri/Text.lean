import ClusterRegistration.Proofs.Uri

namespace ClusterRegistration.Uri

variable {s : String} {uri : Uri} {cs rest : List Char}

def schemeText : Option String → String
  | some scheme => scheme ++ "://"
  | none => ""

theorem length_of_parse (h : parse s = .ok uri) : s.utf8ByteSize ≤ maxLength := by
  by_contra hlength
  unfold parse at h
  rw [if_pos (Nat.lt_of_not_le hlength)] at h
  cases h

theorem parse_of_slash {d : Char} (hs : s.toList = '/' :: d :: cs) (hlength : s.utf8ByteSize ≤ maxLength) :
    parse s = pathAndQuery s.toList >>= fun p => pure ⟨none, "", p.1, p.2⟩ := by
  unfold parse
  rw [if_neg (Nat.not_lt.mpr hlength), hs]
  rfl

theorem eq_slash_of_toLower {c : Char} (h : c.toLower = '/') : c = '/' := by
  unfold Char.toLower at h
  split at h
  . next hupper =>
    have hval : (c.val + 32).toNat = 47 := congrArg (fun c => c.val.toNat) h
    have hlow : 65 ≤ c.val.toNat := UInt32.le_iff_toNat_le.mp hupper.1
    have hhigh : c.val.toNat ≤ 90 := UInt32.le_iff_toNat_le.mp hupper.2
    simp only [UInt32.toNat_add, UInt32.reduceToNat] at hval
    omega
  . exact h

theorem exists_of_map_toLower (word : List Char) (hword : '/' ∉ word)
    (h : (cs.take (word.length + 2)).map Char.toLower = word ++ ['/', '/']) :
    ∃ front, cs = front ++ '/' :: '/' :: cs.drop (word.length + 2) ∧ '/' ∉ front ∧
      front.length = word.length := by
  obtain ⟨front, back, htake, rfl, hback⟩ := List.map_eq_append_iff.mp h
  obtain ⟨a, as, rfl, ha, has⟩ := List.map_eq_cons_iff.mp hback
  obtain ⟨b, bs, rfl, hb, hbs⟩ := List.map_eq_cons_iff.mp has
  rw [List.map_eq_nil_iff.mp hbs, eq_slash_of_toLower ha, eq_slash_of_toLower hb] at htake
  refine ⟨front, ?_, fun hmem => hword (List.mem_map.mpr ⟨'/', hmem, by decide⟩), ?_⟩
  . conv_lhs => rw [← List.take_append_drop ((front.map Char.toLower).length + 2) cs, htake]
    rw [List.append_assoc]
    rfl
  . rw [List.length_map]

theorem exists_of_splitScheme {scheme : String} (h : splitScheme cs = .ok (some scheme, rest)) :
    ∃ front, cs = front ++ '/' :: '/' :: rest ∧ '/' ∉ front ∧
      (schemeText (some scheme)).toList.length = front.length + 2 := by
  unfold splitScheme at h
  -- The common schemes may be in capitals, so that only the length of their text is known.
  split at h
  . next htake =>
    cases h
    obtain ⟨front, hcs, hfront, hlength⟩ := exists_of_map_toLower "http:".toList (by decide) htake
    exact ⟨front, hcs, hfront, by rw [hlength]; decide⟩
  split at h
  . next htake =>
    cases h
    obtain ⟨front, hcs, hfront, hlength⟩ := exists_of_map_toLower "https:".toList (by decide) htake
    exact ⟨front, hcs, hfront, by rw [hlength]; decide⟩
  dsimp only at h
  split at h
  . next rest' hdrop =>
    split at h
    . cases h
    split at h
    . cases h
    cases h
    have hprefix := List.prefix_iff_eq_take.mp (List.takeWhile_prefix isSchemeChar (l := cs))
    refine ⟨cs.takeWhile isSchemeChar ++ [':'], ?_, ?_, ?_⟩
    . conv_lhs => rw [← List.take_append_drop (cs.takeWhile isSchemeChar).length cs, hdrop, ← hprefix]
      rw [List.append_assoc]
      rfl
    . intro hmem
      rcases List.mem_append.mp hmem with hmem | hmem
      . exact absurd (List.mem_takeWhile_imp hmem) (by decide)
      . exact absurd hmem (by decide)
    . simp [schemeText]
  . cases h

theorem eq_of_splitScheme (h : splitScheme cs = .ok (none, rest)) : cs = rest := by
  unfold splitScheme at h
  split at h
  . cases h
  split at h
  . cases h
  dsimp only at h
  split at h
  . split at h
    . cases h
      rfl
    . split at h <;> cases h
  . cases h
    rfl

theorem dropSlashes_ne_concat (cs front : List Char) : dropSlashes cs ≠ front ++ ['/'] := by
  intro h
  have hreverse : cs.reverse.dropWhile (· == '/') = '/' :: front.reverse := by
    have hreverse := congrArg List.reverse h
    rw [dropSlashes, List.reverse_reverse, List.reverse_append] at hreverse
    exact hreverse
  have hhead := List.head?_dropWhile_not (· == '/') cs.reverse
  rw [hreverse] at hhead
  cases hhead

section Below

variable {front root suffix : List Char} {c : Char}

theorem exists_of_slashes (h : front ++ '/' :: '/' :: rest = root ++ '/' :: c :: suffix) (hfront : '/' ∉ front)
    (hroot : ∀ cs, root ≠ cs ++ ['/']) (hc : c ≠ '/') :
    ∃ root', root = front ++ '/' :: '/' :: root' ∧ rest = root' ++ '/' :: c :: suffix := by
  rcases List.append_eq_append_iff.mp h with ⟨between, rfl, hbetween⟩ | ⟨between, rfl, hbetween⟩
  . match between, hbetween with
    | [], hbetween =>
      exact absurd (List.cons.inj (List.cons.inj hbetween).2).1.symm hc
    | [d], hbetween =>
      rw [← (List.cons.inj hbetween).1] at hroot
      exact absurd rfl (hroot front)
    | d :: d' :: root', hbetween =>
      obtain ⟨rfl, hsecond⟩ := List.cons.inj hbetween
      obtain ⟨rfl, hrest⟩ := List.cons.inj hsecond
      exact ⟨root', rfl, hrest⟩
  . cases between with
    | nil => exact absurd (List.cons.inj (List.cons.inj hbetween).2).1 hc
    | cons d between =>
      rw [← (List.cons.inj hbetween).1] at hfront
      exact absurd (List.mem_append_right _ List.mem_cons_self) hfront

variable {host suffix : String}

theorem eq_of_pathAndQuery {path : String} {query : Option String} (hplain : ∀ c ∈ cs, c ≠ '?' ∧ c ≠ '#')
    (h : pathAndQuery cs = .ok (path, query)) : path.toList = cs ∧ query = none := by
  obtain ⟨tail, rfl, -, htail, rfl⟩ := isTail_of_pathAndQuery h
  cases htail with
  | nothing => exact ⟨(List.append_nil _).symm, rfl⟩
  | query => exact absurd rfl (hplain '?' (List.mem_append_right _ List.mem_cons_self)).1
  | fragment => exact absurd rfl (hplain '#' (List.mem_append_right _ List.mem_cons_self)).2

theorem toList_text (hpath : uri.path ≠ "") (hquery : uri.query = none) :
    uri.text.toList = (schemeText uri.scheme).toList ++ (uri.authority.toList ++ uri.path.toList) := by
  have hempty : uri.path.isEmpty = false := by
    rw [Bool.eq_false_iff, ne_eq, String.isEmpty_iff]
    exact hpath
  unfold text
  rw [hquery, hempty]
  cases uri.scheme <;> simp [schemeText]

theorem exists_text_of_parse (hplain : ∀ c ∈ s.toList, c ≠ '?' ∧ c ≠ '#')
    (hs : s.toList = root ++ '/' :: c :: cs) (hroot : ∀ cs, root ≠ cs ++ ['/']) (hc : c ≠ '/')
    (h : parse s = .ok uri) :
    ∃ root' : List Char, root'.length = root.length ∧ uri.text.toList = root' ++ '/' :: c :: cs := by
  have hlength := length_of_parse h
  obtain ⟨r, d, tail, hhead⟩ : ∃ r d tail, s.toList = r :: d :: tail := by
    rw [hs]
    match root with
    | [] | [r] | r :: d :: root => exact ⟨_, _, _, rfl⟩
  by_cases hr : r = '/'
  . -- Nothing but a path is read.
    subst hr
    rw [parse_of_slash hhead hlength] at h
    obtain ⟨⟨path, query⟩, hpath, h⟩ := exists_of_bind_eq_ok h
    cases h
    obtain ⟨htext, rfl⟩ := eq_of_pathAndQuery hplain hpath
    have hne : path ≠ "" := by
      rintro rfl
      rw [← htext] at hhead
      cases hhead
    refine ⟨root, rfl, ?_⟩
    rw [toList_text hne rfl, ← hs, ← htext]
    rfl
  . rw [parse_of_length hhead hr hlength] at h
    obtain ⟨scheme, rest, authority, rest', hsplit, hauthority, hparts⟩ := parseFull_eq_ok h
    obtain ⟨rfl, hends, -⟩ := splitAuthority_eq_ok hauthority
    have hslash : '/' ∉ authority := fun hmem => absurd (hends '/' hmem) (by decide)
    obtain ⟨rfl, rfl, -⟩ | ⟨-, path, query, hpath, hsome, rfl⟩ := hparts
    . -- An authority alone has no slash.
      rw [eq_of_splitScheme hsplit, List.append_nil] at hs
      exact absurd (hs ▸ List.mem_append_right _ List.mem_cons_self) hslash
    . obtain ⟨scheme, rfl⟩ := Option.isSome_iff_exists.mp hsome
      obtain ⟨front, hfront, hslashes, hwidth⟩ := exists_of_splitScheme hsplit
      rw [hfront] at hs hplain
      obtain ⟨root', rfl, hroot'⟩ := exists_of_slashes hs hslashes hroot hc
      obtain ⟨htext, rfl⟩ := eq_of_pathAndQuery
        (fun c hc => hplain c (List.mem_append_right _ (by simp [hc]))) hpath
      have hne : path ≠ "" := by
        rintro rfl
        rw [← htext, String.toList_empty, List.append_nil] at hroot'
        exact absurd (hroot' ▸ List.mem_append_right _ List.mem_cons_self) hslash
      refine ⟨(schemeText (some scheme)).toList ++ root', ?_, ?_⟩
      . rw [List.length_append, hwidth, List.length_append, List.length_cons, List.length_cons]
        omega
      . rw [toList_text hne rfl, String.toList_ofList, htext, hroot', List.append_assoc]

end Below

end ClusterRegistration.Uri
