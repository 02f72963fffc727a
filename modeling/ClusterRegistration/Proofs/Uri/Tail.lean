import ClusterRegistration.Proofs.Uri

namespace ClusterRegistration.Uri

variable {s host suffix : String} {base : Uri} {cs authority path tail : List Char}

theorem parse_of_divided (h : Divided s.toList authority path tail) (hlength : s.utf8ByteSize ≤ maxLength) :
    parse s = .ok ⟨some "https", String.ofList authority, String.ofList path, queryOf tail⟩ :=
  (parse_eq_parseFull h.scheme hlength).trans (parseFull_of_divided h)

theorem mem_dropSlashes {c : Char} (hc : c ∈ cs) (hslash : c ≠ '/') : c ∈ dropSlashes cs := by
  obtain ⟨front, back, rfl⟩ := List.append_of_mem hc
  have hdrop := dropSlashes_append hslash front back
  rw [List.append_assoc, List.singleton_append] at hdrop
  rw [hdrop]
  simp

theorem takeWhile_dropSlashes (hfragment : '#' ∈ cs) (suffix : List Char) :
    (dropSlashes cs ++ suffix).takeWhile (· != '#') = cs.takeWhile (· != '#') := by
  have hmem := mem_dropSlashes hfragment (by decide)
  obtain ⟨slashes, hslashes⟩ := prefix_dropSlashes cs
  conv_rhs => rw [← hslashes]
  rw [takeWhile_append_of_mem (p := (· != '#')) hmem rfl, takeWhile_append_of_mem (p := (· != '#')) hmem rfl]

theorem queryOf_cons (cs : List Char) : queryOf ('?' :: cs) = some (String.ofList (cs.takeWhile (· != '#'))) :=
  rfl

theorem queryOf_of_plain (h : '#' ∉ cs) : queryOf ('?' :: cs) = some (String.ofList cs) := by
  have hcs : cs.takeWhile (· != '#') = cs := by
    rw [List.takeWhile_eq_self_iff]
    intro c hc
    rw [bne_iff_ne]
    rintro rfl
    exact h hc
  rw [queryOf_cons, hcs]

variable (hbase : parse host = .ok base) (hscheme : base.scheme = some "https")
  (hlength : (Address.dropTrailingSlashes host ++ suffix).utf8ByteSize ≤ maxLength)

include hbase hscheme hlength

theorem parse_below_fragment (hfragment : '#' ∈ host.toList) :
    parse (Address.dropTrailingSlashes host ++ suffix) = .ok base := by
  have hfull := parseFull_of_parse hbase hscheme
  obtain ⟨tail, hdivided, hquery⟩ := divided_of_parseFull hfull hscheme
  have hmem : '#' ∈ tail := hdivided.mem_tail hfragment (by decide) rfl rfl
  have hbelow : ∃ tail', Divided (dropSlashes host.toList ++ suffix.toList) base.authority.toList
      base.path.toList tail' ∧ queryOf tail' = queryOf tail := by
    cases hdivided.tail_valid with
    | nothing => cases hmem
    | fragment cs => exact ⟨_, hdivided.extend_tail (by decide) (.fragment _), rfl⟩
    | @query cs hvalid =>
      have hcs : '#' ∈ cs := by simpa using hmem
      have hsame := takeWhile_dropSlashes hcs suffix.toList
      refine ⟨_, hdivided.extend_tail (by decide) (.query ?_), ?_⟩
      . rw [hsame]
        exact hvalid
      . rw [queryOf_cons, queryOf_cons, hsame]
  obtain ⟨tail', hbelow, hsame⟩ := hbelow
  rw [← toList_below] at hbelow
  rw [parse_of_divided hbelow hlength, String.ofList_toList, String.ofList_toList, hsame, ← hquery, ← hscheme]

theorem parse_below_query (hsuffix : ∀ c ∈ suffix.toList, isQueryChar c = true) (hquestion : '?' ∈ host.toList)
    (hfragment : '#' ∉ host.toList) :
    ∃ query, base.query = some query ∧ parse (Address.dropTrailingSlashes host ++ suffix) =
      .ok { base with query := some (Address.dropTrailingSlashes query ++ suffix) } := by
  have hfull := parseFull_of_parse hbase hscheme
  obtain ⟨tail, hdivided, hquery⟩ := divided_of_parseFull hfull hscheme
  have hmem : '?' ∈ tail := hdivided.mem_tail hquestion (by decide) rfl rfl
  cases hdivided.tail_valid with
  | nothing => cases hmem
  | fragment cs => exact absurd (hdivided.mem_of_mem_tail List.mem_cons_self) hfragment
  | @query cs hvalid =>
    have hbelow := hdivided.extend_tail (by decide) (Divided.isTail_query_append hvalid hsuffix)
    have hplain : '#' ∉ cs := fun hc => hfragment (hdivided.mem_of_mem_tail (List.mem_cons_of_mem _ hc))
    have hplain' : '#' ∉ dropSlashes cs ++ suffix.toList := by
      intro hc
      rcases List.mem_append.mp hc with hc | hc
      . exact hplain ((prefix_dropSlashes cs).subset hc)
      . exact absurd (hsuffix _ hc) (by decide)
    refine ⟨String.ofList cs, hquery.trans (queryOf_of_plain hplain), ?_⟩
    have htext : String.ofList (dropSlashes cs ++ suffix.toList) =
        Address.dropTrailingSlashes (String.ofList cs) ++ suffix := by
      rw [← String.toList_inj, toList_below, String.toList_ofList, String.toList_ofList]
    rw [← toList_below] at hbelow
    rw [parse_of_divided hbelow hlength, String.ofList_toList, String.ofList_toList, ← hscheme,
      queryOf_of_plain hplain', htext]

end ClusterRegistration.Uri
