import Mathlib.Data.List.DropRight
import ClusterRegistration.Client.Address
import ClusterRegistration.Proofs.Record.Alike

namespace ClusterRegistration

namespace Uri

variable {cs cs' : List Char} {uri : Uri} {s : String}

theorem parse_of_length {c d : Char} (hcs : s.toList = c :: d :: cs) (hc : c ≠ '/')
    (hlength : s.utf8ByteSize ≤ maxLength) : parse s = parseFull s.toList := by
  unfold parse
  rw [if_neg (Nat.not_lt.mpr hlength), hcs]
  split
  . next h => cases h
  . next h => cases h
  . next h => cases h
  . next h => cases h
  . next h => exact absurd (List.cons.inj h).1 hc
  . rfl

theorem parseFull_of_parse {scheme : String} (h : parse s = .ok uri) (hscheme : uri.scheme = some scheme) :
    parseFull s.toList = .ok uri := by
  unfold parse at h
  split at h
  . cases h
  . split at h
    . cases h
    . cases h
      cases hscheme
    . cases h
      cases hscheme
    . obtain ⟨⟨authority, rest⟩, -, h⟩ := exists_of_bind_eq_ok h
      dsimp only at h
      split at h
      . cases h
      . cases h
        cases hscheme
    . obtain ⟨⟨path, query⟩, -, h⟩ := exists_of_bind_eq_ok h
      cases h
      cases hscheme
    . exact h

theorem splitScheme_https (h : (cs.take 8).map Char.toLower = "https://".toList) :
    splitScheme cs = .ok (some "https", cs.drop 8) := by
  have hseven : ¬ (cs.take 7).map Char.toLower = "http://".toList := by
    have htake : cs.take 7 = (cs.take 8).take 7 := by
      rw [List.take_take]
      rfl
    rw [htake, List.map_take, h]
    decide
  unfold splitScheme
  rw [if_neg hseven, if_pos h]

theorem https_of_splitScheme {rest : List Char} (h : splitScheme cs = .ok (some "https", rest)) :
    (cs.take 8).map Char.toLower = "https://".toList ∧ rest = cs.drop 8 := by
  unfold splitScheme at h
  split at h
  . have hscheme := congrArg Prod.fst (Except.ok.inj h)
    exact absurd (Option.some.inj hscheme) (by decide)
  . split at h
    . next htake =>
      cases h
      exact ⟨htake, rfl⟩
    . next htake =>
      dsimp only at h
      by_cases hshort : cs.length ≤ 3
      . simp only [hshort, if_true] at h
        split at h <;> cases h
      . simp only [hshort, if_false] at h
        split at h
        . next rest' hdrop =>
          split at h
          . cases h
          . -- This text would have been read as one with the secure scheme.
            have hscheme : String.ofList (cs.takeWhile isSchemeChar) = "https" :=
              Option.some.inj (congrArg Prod.fst (Except.ok.inj h))
            have hchars : cs.takeWhile isSchemeChar = "https".toList := by
              rw [← hscheme, String.toList_ofList]
            have htext : cs = "https".toList ++ ':' :: '/' :: '/' :: rest' := by
              rw [← hdrop, ← hchars]
              conv_lhs => rw [← List.take_append_drop (cs.takeWhile isSchemeChar).length cs]
              rw [← List.prefix_iff_eq_take.mp (List.takeWhile_prefix _)]
            refine absurd ?_ htake
            rw [htext]
            rfl
        . cases h

inductive IsTail : List Char → Prop where
  | nothing : IsTail []
  | query {cs : List Char} (h : ∀ c ∈ cs.takeWhile (· != '#'), isQueryChar c = true) : IsTail ('?' :: cs)
  | fragment (cs : List Char) : IsTail ('#' :: cs)

def queryOf : List Char → Option String
  | '?' :: cs => some (String.ofList (cs.takeWhile (· != '#')))
  | _ => none

structure Divided (cs : List Char) (authority path tail : List Char) : Prop where
  scheme : (cs.take 8).map Char.toLower = "https://".toList
  rest : cs.drop 8 = authority ++ (path ++ tail)
  authority_ne : authority ≠ []
  authority_ends : ∀ c ∈ authority, endsAuthority c = false
  path_begins : ∀ c ∈ path.head?, c = '/'
  complete : ∃ s, authority.foldlM AuthorityScan.step {} = .ok s ∧ s.isComplete = true
  path_valid : ∀ c ∈ path, isPathChar c = true
  tail_valid : IsTail tail

theorem plain_of_isPathChar {c : Char} (h : isPathChar c = true) : (c != '?' && c != '#') = true := by
  rw [Bool.and_eq_true, bne_iff_ne, bne_iff_ne]
  constructor
  . rintro rfl
    cases h
  . rintro rfl
    cases h

theorem plain_of_all (h : cs.all (fun c => c != '?' && c != '#') = true) : ∀ c ∈ cs, c ≠ '?' ∧ c ≠ '#' := by
  simpa using h

theorem isQueryChar_of_isPathChar {c : Char} (h : isPathChar c = true) (hquote : c ≠ '"') :
    isQueryChar c = true := by
  have hne : c.toNat ≠ 0x22 := fun hc => hquote (Char.toNat_inj.mp hc)
  simp only [isPathChar, isQueryChar, Bool.or_eq_true, Bool.and_eq_true, decide_eq_true_eq,
    beq_iff_eq] at h ⊢
  omega

section Tail

variable {path tail : List Char}

theorem IsTail.takeWhile_eq_nil (h : IsTail tail) : tail.takeWhile (fun c => c != '?' && c != '#') = [] := by
  cases h <;> rfl

theorem IsTail.takeWhile_append (h : IsTail tail) (hpath : ∀ c ∈ path, isPathChar c = true) :
    (path ++ tail).takeWhile (fun c => c != '?' && c != '#') = path := by
  rw [List.takeWhile_append_of_pos (fun c hc => plain_of_isPathChar (hpath c hc)), h.takeWhile_eq_nil,
    List.append_nil]

theorem pathAndQuery_of_isTail (hpath : ∀ c ∈ path, isPathChar c = true) (h : IsTail tail) :
    pathAndQuery (path ++ tail) = .ok (String.ofList path, queryOf tail) := by
  have hall : path.all isPathChar = true := List.all_eq_true.mpr hpath
  unfold pathAndQuery
  dsimp only
  rw [h.takeWhile_append hpath, hall, List.drop_left]
  cases h with
  | nothing => rfl
  | fragment cs => rfl
  | @query cs hquery =>
    have hquery : (cs.takeWhile (· != '#')).all isQueryChar = true := List.all_eq_true.mpr hquery
    show (if !(cs.takeWhile (· != '#')).all isQueryChar then _ else _) = _
    rw [hquery]
    rfl

theorem isTail_of_pathAndQuery {path : String} {query : Option String}
    (h : pathAndQuery cs = .ok (path, query)) :
    ∃ tail, cs = path.toList ++ tail ∧ (∀ c ∈ path.toList, isPathChar c = true) ∧ IsTail tail ∧
      query = queryOf tail := by
  obtain ⟨plain, tail, hplain, htext, hhead⟩ : ∃ plain tail,
      cs.takeWhile (fun c => c != '?' && c != '#') = plain ∧ cs = plain ++ tail ∧
        ∀ c ∈ tail.head?, c = '?' ∨ c = '#' := by
    refine ⟨_, _, rfl, List.takeWhile_append_dropWhile.symm, fun c hc => ?_⟩
    have hends := List.head?_dropWhile_not (fun c => c != '?' && c != '#') cs
    rw [hc] at hends
    simpa [or_iff_not_imp_left] using hends
  unfold pathAndQuery at h
  dsimp only at h
  rw [hplain, htext, List.drop_left] at h
  refine ⟨tail, ?_⟩
  cases hall : plain.all isPathChar with
  | false =>
    rw [hall] at h
    cases h
  | true =>
    rw [hall] at h
    have hvalid := List.all_eq_true.mp hall
    match tail with
    | [] =>
      cases h
      rw [String.toList_ofList]
      exact ⟨htext, hvalid, .nothing, rfl⟩
    | c :: cs' =>
      rcases hhead c rfl with rfl | rfl
      . cases hquery : (cs'.takeWhile (· != '#')).all isQueryChar with
        | false =>
          simp [hquery] at h
          cases h
        | true =>
          simp [hquery] at h
          cases h
          rw [String.toList_ofList]
          exact ⟨htext, hvalid, .query (List.all_eq_true.mp hquery), rfl⟩
      . cases h
        rw [String.toList_ofList]
        exact ⟨htext, hvalid, .fragment cs', rfl⟩

end Tail

variable {authority path tail : List Char}

theorem Divided.endsAuthority_of_head? (h : Divided cs authority path tail) :
    ∀ c ∈ (path ++ tail).head?, endsAuthority c = true := by
  intro c hc
  cases hpath : path with
  | cons c' path' =>
    rw [hpath] at hc
    rw [h.path_begins c (hpath ▸ hc)]
    rfl
  | nil =>
    rw [hpath, List.nil_append] at hc
    cases h.tail_valid <;> cases hc <;> rfl

theorem splitAuthority_of_divided (h : Divided cs authority path tail) :
    splitAuthority (cs.drop 8) = .ok (authority, path ++ tail) := by
  have hall : ∀ c ∈ authority, (!endsAuthority c) = true := by
    intro c hc
    rw [h.authority_ends c hc]
    rfl
  have hrest : (path ++ tail).takeWhile (!endsAuthority ·) = [] ∧
      (path ++ tail).dropWhile (!endsAuthority ·) = path ++ tail := by
    have hends := h.endsAuthority_of_head?
    cases hcs : path ++ tail with
    | nil => exact ⟨rfl, rfl⟩
    | cons c cs' =>
      have hc : endsAuthority c = true := hends c (hcs ▸ rfl)
      simp [hc]
  obtain ⟨s, hscan, hcomplete⟩ := h.complete
  unfold splitAuthority
  dsimp only
  rw [h.rest, List.takeWhile_append_of_pos hall, List.dropWhile_append_of_pos hall, hrest.1, hrest.2,
    List.append_nil, hscan]
  show (if !s.isComplete then _ else _) = _
  rw [hcomplete]
  rfl

theorem parseFull_of_divided (h : Divided cs authority path tail) :
    parseFull cs = .ok ⟨some "https", String.ofList authority, String.ofList path, queryOf tail⟩ := by
  have hne : authority.isEmpty = false := by
    rw [List.isEmpty_eq_false_iff]
    exact h.authority_ne
  unfold parseFull
  rw [splitScheme_https h.scheme]
  show (splitAuthority (cs.drop 8) >>= fun p => _) = _
  rw [splitAuthority_of_divided h]
  show (if authority.isEmpty then _ else pathAndQuery (path ++ tail) >>= fun p => _) = _
  rw [hne, pathAndQuery_of_isTail h.path_valid h.tail_valid]
  rfl

theorem splitAuthority_eq_ok (h : splitAuthority cs = .ok (authority, path)) :
    cs = authority ++ path ∧ (∀ c ∈ authority, endsAuthority c = false) ∧
      (∀ c ∈ path.head?, endsAuthority c = true) ∧
      ∃ s, authority.foldlM AuthorityScan.step {} = .ok s ∧ s.isComplete = true := by
  unfold splitAuthority at h
  obtain ⟨s, hscan, h⟩ := exists_of_bind_eq_ok h
  dsimp only at h
  split at h
  . cases h
  . next hcomplete =>
    cases h
    refine ⟨List.takeWhile_append_dropWhile.symm, ?_, ?_, s, hscan, by simpa using hcomplete⟩
    . intro c hc
      have := List.mem_takeWhile_imp hc
      simpa using this
    . intro c hc
      have := List.head?_dropWhile_not (!endsAuthority ·) cs
      rw [hc] at this
      simpa using this

theorem parseFull_eq_ok (h : parseFull cs = .ok uri) :
    ∃ scheme rest authority rest', splitScheme cs = .ok (scheme, rest) ∧
      splitAuthority rest = .ok (authority, rest') ∧
      ((scheme = none ∧ rest' = [] ∧ uri.scheme = none) ∨
        authority ≠ [] ∧ ∃ path query, pathAndQuery rest' = .ok (path, query) ∧ scheme.isSome = true ∧
          uri = ⟨scheme, String.ofList authority, path, query⟩) := by
  unfold parseFull at h
  obtain ⟨⟨scheme, rest⟩, hscheme, h⟩ := exists_of_bind_eq_ok h
  obtain ⟨⟨authority, rest'⟩, hauthority, h⟩ := exists_of_bind_eq_ok h
  refine ⟨scheme, rest, authority, rest', hscheme, hauthority, ?_⟩
  cases scheme with
  | none =>
    dsimp only at h
    split at h
    . cases h
    . next hempty =>
      cases h
      exact .inl ⟨rfl, by simpa using hempty, rfl⟩
  | some scheme =>
    dsimp only at h
    split at h
    . cases h
    . next hne =>
      obtain ⟨⟨path, query⟩, hpath, h⟩ := exists_of_bind_eq_ok h
      cases h
      exact .inr ⟨by simpa using hne, path, query, hpath, rfl, rfl⟩

theorem divided_of_parseFull (h : parseFull cs = .ok uri) (hscheme : uri.scheme = some "https") :
    ∃ tail, Divided cs uri.authority.toList uri.path.toList tail ∧ uri.query = queryOf tail := by
  obtain ⟨scheme, rest, authority, rest', hsplit, hauthority, ⟨-, -, hnone⟩ | ⟨hne, path, query, hpath, -, rfl⟩⟩ :=
    parseFull_eq_ok h
  . rw [hnone] at hscheme
    cases hscheme
  . cases hscheme
    obtain ⟨hhttps, rfl⟩ := https_of_splitScheme hsplit
    obtain ⟨hrest, hends, hbegins, hcomplete⟩ := splitAuthority_eq_ok hauthority
    obtain ⟨tail, rfl, hvalid, htail, hquery⟩ := isTail_of_pathAndQuery hpath
    dsimp only
    rw [String.toList_ofList]
    refine ⟨tail, ⟨hhttps, hrest, hne, hends, fun c hc => ?_, hcomplete, hvalid, htail⟩, hquery⟩
    have hend := hbegins c (by rw [List.head?_append, hc]; rfl)
    have hplain := plain_of_isPathChar (hvalid c (List.mem_of_mem_head? hc))
    simp only [endsAuthority, Bool.or_eq_true, beq_iff_eq, Bool.and_eq_true, bne_iff_ne] at hend hplain
    rcases hend with (hend | hend) | hend
    . exact hend
    . exact absurd hend hplain.1
    . exact absurd hend hplain.2

theorem scheme_of_parseFull (hscheme : (cs.take 8).map Char.toLower = "https://".toList)
    (h : parseFull cs = .ok uri) : uri.scheme = some "https" := by
  obtain ⟨scheme, rest, authority, rest', hsplit, -, ⟨rfl, -⟩ | ⟨-, path, query, -, -, rfl⟩⟩ := parseFull_eq_ok h
  . rw [splitScheme_https hscheme] at hsplit
    cases hsplit
  . rw [splitScheme_https hscheme] at hsplit
    cases hsplit
    rfl

theorem takeWhile_prefix_append {α : Type} (p : α → Bool) (xs ys : List α) :
    xs.takeWhile p <+: (xs ++ ys).takeWhile p := by
  rw [List.takeWhile_append]
  split
  . exact (List.takeWhile_prefix p).trans (List.prefix_append _ _)
  . exact List.prefix_rfl

theorem takeWhile_append_of_mem {α : Type} {p : α → Bool} {xs : List α} {a : α} (ha : a ∈ xs)
    (hp : p a = false) (ys : List α) : (xs ++ ys).takeWhile p = xs.takeWhile p := by
  rw [List.takeWhile_append]
  split
  . next hlength =>
    have hall := List.takeWhile_eq_self_iff.mp ((List.takeWhile_prefix p).eq_of_length hlength)
    rw [hall a ha] at hp
    cases hp
  . rfl

def dropSlashes (cs : List Char) : List Char :=
  (cs.reverse.dropWhile (· == '/')).reverse

theorem toList_dropTrailingSlashes (s : String) :
    (Address.dropTrailingSlashes s).toList = dropSlashes s.toList :=
  String.toList_ofList

theorem toList_below (host suffix : String) :
    (Address.dropTrailingSlashes host ++ suffix).toList = dropSlashes host.toList ++ suffix.toList := by
  rw [String.toList_append, toList_dropTrailingSlashes]

theorem dropSlashes_append {c : Char} (hc : c ≠ '/') (cs cs' : List Char) :
    dropSlashes (cs ++ [c] ++ cs') = cs ++ [c] ++ dropSlashes cs' := by
  have hcs : (cs ++ [c]).reverse.dropWhile (· == '/') = (cs ++ [c]).reverse := by
    rw [List.reverse_append, List.reverse_singleton, List.singleton_append, List.dropWhile_cons]
    simp [hc]
  unfold dropSlashes
  rw [List.reverse_append, List.dropWhile_append, hcs]
  split
  . next hempty =>
    rw [List.isEmpty_iff.mp hempty, List.reverse_reverse, List.reverse_nil, List.append_nil]
  . rw [List.reverse_append, List.reverse_reverse]

theorem prefix_dropSlashes (cs : List Char) : dropSlashes cs <+: cs := by
  have hsuffix := List.dropWhile_suffix (l := cs.reverse) (· == '/')
  have hprefix := List.reverse_prefix.mpr hsuffix
  rw [List.reverse_reverse] at hprefix
  exact hprefix

namespace Divided

theorem length_take (h : Divided cs authority path tail) : (cs.take 8).length = 8 := by
  rw [← List.length_map (f := Char.toLower), h.scheme]
  rfl

theorem mem_of_mem_tail (h : Divided cs authority path tail) {c : Char} (hc : c ∈ tail) : c ∈ cs := by
  apply List.mem_of_mem_drop (i := 8)
  rw [h.rest]
  exact List.mem_append_right _ (List.mem_append_right _ hc)

theorem mem_tail (h : Divided cs authority path tail) {c : Char} (hc : c ∈ cs)
    (hscheme : c.toLower ∉ "https://".toList) (hends : endsAuthority c = true)
    (hpath : isPathChar c = false) : c ∈ tail := by
  rw [← List.take_append_drop 8 cs, h.rest] at hc
  rcases List.mem_append.mp hc with hc | hc
  . exact absurd (h.scheme ▸ List.mem_map_of_mem hc) hscheme
  rcases List.mem_append.mp hc with hc | hc
  . rw [h.authority_ends c hc] at hends
    cases hends
  rcases List.mem_append.mp hc with hc | hc
  . rw [h.path_valid c hc] at hpath
    cases hpath
  . exact hc

theorem replace (h : Divided cs authority path tail) {path' tail' : List Char}
    (hbegins : ∀ c ∈ path'.head?, c = '/') (hpath : ∀ c ∈ path', isPathChar c = true)
    (htail : IsTail tail') : Divided (cs.take 8 ++ (authority ++ (path' ++ tail'))) authority path' tail' := by
  refine ⟨?_, ?_, h.authority_ne, h.authority_ends, hbegins, h.complete, hpath, htail⟩
  . rw [List.take_left' h.length_take]
    exact h.scheme
  . rw [List.drop_left' h.length_take]

theorem dropSlashes_eq (h : Divided cs authority path tail) :
    dropSlashes cs = cs.take 8 ++ (authority ++ dropSlashes (path ++ tail)) := by
  obtain ⟨authority', c, hc⟩ := (List.eq_nil_or_concat' authority).resolve_left h.authority_ne
  have hslash : c ≠ '/' := by
    rintro rfl
    have hends := h.authority_ends '/' (hc ▸ List.mem_append_right _ List.mem_cons_self)
    cases hends
  have hdrop := dropSlashes_append hslash (cs.take 8 ++ authority') (path ++ tail)
  conv_lhs => rw [← List.take_append_drop 8 cs, h.rest]
  rw [hc]
  simpa only [List.append_assoc] using hdrop

variable {suffix : List Char}

theorem extend (h : Divided cs authority path []) (hsuffix : ∀ c ∈ suffix, isPathChar c = true)
    (hslash : suffix.head? = some '/') :
    Divided (dropSlashes cs ++ suffix) authority (dropSlashes path ++ suffix) [] := by
  have htext : dropSlashes cs ++ suffix =
      cs.take 8 ++ (authority ++ (dropSlashes path ++ suffix ++ [])) := by
    rw [h.dropSlashes_eq, List.append_nil, List.append_nil, List.append_assoc, List.append_assoc]
  rw [htext]
  refine h.replace ?_ ?_ .nothing
  . intro c hc
    cases hpath : dropSlashes path with
    | nil =>
      rw [hpath, List.nil_append, hslash] at hc
      exact (Option.some.inj hc).symm
    | cons c' path' =>
      rw [hpath] at hc
      obtain ⟨rest, hrest⟩ := prefix_dropSlashes path
      rw [hpath] at hrest
      have hhead : path.head? = some c := by
        rw [← hrest]
        exact hc
      exact h.path_begins c hhead
  . intro c hc
    rcases List.mem_append.mp hc with hc | hc
    . exact h.path_valid c ((prefix_dropSlashes path).subset hc)
    . exact hsuffix c hc

theorem extend_tail {c : Char} (h : Divided cs authority path (c :: tail)) (hslash : c ≠ '/')
    (htail : IsTail (c :: (dropSlashes tail ++ suffix))) :
    Divided (dropSlashes cs ++ suffix) authority path (c :: (dropSlashes tail ++ suffix)) := by
  have htext : dropSlashes cs ++ suffix =
      cs.take 8 ++ (authority ++ (path ++ c :: (dropSlashes tail ++ suffix))) := by
    have hdrop := dropSlashes_append hslash path tail
    rw [List.append_assoc, List.append_assoc, List.singleton_append, List.singleton_append] at hdrop
    rw [h.dropSlashes_eq, hdrop, List.append_assoc, List.append_assoc, List.append_assoc, List.cons_append]
  rw [htext]
  exact h.replace h.path_begins h.path_valid htail

theorem isTail_query_append {cs : List Char} (h : ∀ c ∈ cs.takeWhile (· != '#'), isQueryChar c = true)
    (hsuffix : ∀ c ∈ suffix, isQueryChar c = true) : IsTail ('?' :: (dropSlashes cs ++ suffix)) := by
  obtain ⟨slashes, hslashes⟩ := prefix_dropSlashes cs
  have hbefore := takeWhile_prefix_append (· != '#') (dropSlashes cs) slashes
  rw [hslashes] at hbefore
  refine .query fun c hc => ?_
  rw [List.takeWhile_append] at hc
  split at hc
  . next hall =>
    rcases List.mem_append.mp hc with hc | hc
    . rw [← (List.takeWhile_prefix _).eq_of_length hall] at hc
      exact h c (hbefore.subset hc)
    . exact hsuffix c ((List.takeWhile_prefix _).subset hc)
  . exact h c (hbefore.subset hc)

theorem exists_extend (h : Divided cs authority path tail)
    (hsuffix : ∀ c ∈ suffix, isPathChar c = true ∧ isQueryChar c = true) (hslash : suffix.head? = some '/') :
    ∃ path' tail', Divided (dropSlashes cs ++ suffix) authority path' tail' := by
  cases htail : h.tail_valid with
  | nothing => exact ⟨_, _, h.extend (fun c hc => (hsuffix c hc).1) hslash⟩
  | query hquery =>
    exact ⟨_, _, h.extend_tail (by decide) (isTail_query_append hquery fun c hc => (hsuffix c hc).2)⟩
  | fragment cs' => exact ⟨_, _, h.extend_tail (by decide) (.fragment _)⟩

end Divided

variable {host suffix : String}

theorem parse_eq_parseFull (hscheme : (s.toList.take 8).map Char.toLower = "https://".toList)
    (hlength : s.utf8ByteSize ≤ maxLength) : parse s = parseFull s.toList := by
  match hcs : s.toList with
  | [] | [c] =>
    rw [hcs] at hscheme
    cases congrArg List.length hscheme
  | c :: d :: cs =>
    rw [← hcs]
    refine parse_of_length hcs ?_ hlength
    rintro rfl
    rw [hcs] at hscheme
    cases (List.cons.inj hscheme).1

theorem exists_divided_of_parse (hscheme : (s.toList.take 8).map Char.toLower = "https://".toList)
    (h : parse s = .ok uri) : ∃ authority path tail, Divided s.toList authority path tail := by
  by_cases hlength : s.utf8ByteSize ≤ maxLength
  . rw [parse_eq_parseFull hscheme hlength] at h
    obtain ⟨tail, hdivided, -⟩ := divided_of_parseFull h (scheme_of_parseFull hscheme h)
    exact ⟨_, _, _, hdivided⟩
  . unfold parse at h
    rw [if_pos (Nat.lt_of_not_le hlength)] at h
    cases h

theorem parse_below {base : Uri} (hbase : parse host = .ok base)
    (hscheme : base.scheme = some "https") (hplain : ∀ c ∈ host.toList, c ≠ '?' ∧ c ≠ '#')
    (hsuffix : ∀ c ∈ suffix.toList, isPathChar c = true) (hslash : suffix.toList.head? = some '/')
    (hlength : (Address.dropTrailingSlashes host ++ suffix).utf8ByteSize ≤ maxLength) :
    parse (Address.dropTrailingSlashes host ++ suffix) =
      .ok ⟨some "https", base.authority, Address.dropTrailingSlashes base.path ++ suffix, none⟩ := by
  obtain ⟨tail, hdivided, -⟩ := divided_of_parseFull (parseFull_of_parse hbase hscheme) hscheme
  obtain rfl : tail = [] := by
    cases hdivided.tail_valid with
    | nothing => rfl
    | query h => exact absurd rfl (hplain '?' (hdivided.mem_of_mem_tail List.mem_cons_self)).1
    | fragment cs => exact absurd rfl (hplain '#' (hdivided.mem_of_mem_tail List.mem_cons_self)).2
  have hbelow := hdivided.extend hsuffix hslash
  have hpath : String.ofList (dropSlashes base.path.toList ++ suffix.toList) =
      Address.dropTrailingSlashes base.path ++ suffix := by
    rw [← String.toList_inj, String.toList_append, toList_dropTrailingSlashes, String.toList_ofList]
  rw [← toList_below] at hbelow
  rw [parse_eq_parseFull hbelow.scheme hlength, parseFull_of_divided hbelow, String.ofList_toList, hpath]
  rfl

theorem exists_parse_below (h : Divided host.toList authority path tail)
    (hsuffix : ∀ c ∈ suffix.toList, isPathChar c = true ∧ isQueryChar c = true)
    (hslash : suffix.toList.head? = some '/')
    (hlength : (Address.dropTrailingSlashes host ++ suffix).utf8ByteSize ≤ maxLength) :
    ∃ uri, parse (Address.dropTrailingSlashes host ++ suffix) = .ok uri := by
  obtain ⟨path', tail', hbelow⟩ := h.exists_extend hsuffix hslash
  rw [← toList_below] at hbelow
  exact ⟨_, (parse_eq_parseFull hbelow.scheme hlength).trans (parseFull_of_divided hbelow)⟩

end Uri

end ClusterRegistration
