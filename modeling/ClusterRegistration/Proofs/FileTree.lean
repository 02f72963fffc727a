import ClusterRegistration.FileTree
import ClusterRegistration.Proofs.Path
import ClusterRegistration.Proofs.Record.Alike

namespace ClusterRegistration.FileTree

variable {t : FileTree} {place : List String}

theorem entry?_put_self (t : FileTree) (place : List String) (e : FileEntry) :
    entry? (t.put place e) place = some e := by
  unfold entry? put
  rw [List.lookup_cons_self]

theorem lookup_filter_ne {entries : List (List String × FileEntry)} {place place' : List String}
    (h : place' ≠ place) :
    (entries.filter (fun (p, _) => p != place)).lookup place' = entries.lookup place' := by
  induction entries with
  | nil => rfl
  | cons entry entries ih =>
    obtain ⟨q, e⟩ := entry
    by_cases hq : q = place
    . subst hq
      have hne : (place' == q) = false := beq_false_of_ne h
      rw [List.filter_cons_of_neg (by simp), ih, List.lookup_cons, hne]
    . rw [List.filter_cons_of_pos (by simpa using hq), List.lookup_cons, List.lookup_cons, ih]

theorem lookup_put_of_ne {place' : List String} (e : FileEntry) (h : place' ≠ place) :
    (t.put place e).entries.lookup place' = t.entries.lookup place' := by
  have hbeq : (place' == place) = false := beq_false_of_ne h
  unfold put
  rw [List.lookup_cons, hbeq]
  exact lookup_filter_ne h

theorem entry?_put_of_directory {place' : List String} (e : FileEntry)
    (h : t.entry? place ≠ some .directory) (h' : t.entry? place' = some .directory) :
    entry? (t.put place e) place' = some .directory := by
  have hne : place' ≠ place := by
    intro heq
    rw [heq] at h'
    exact h h'
  unfold entry? at h' ⊢
  rw [lookup_put_of_ne e hne]
  -- A directory is listed, or there is something below it, which stays or is what was put in.
  split at h'
  . exact h'
  . split at h'
    . next habove =>
      apply if_pos
      rw [Bool.or_eq_true] at habove ⊢
      rcases habove with hdirectory | hany
      . exact .inl hdirectory
      . right
        rw [List.any_eq_true] at hany ⊢
        obtain ⟨⟨q, e'⟩, hmem, hprefix⟩ := hany
        by_cases hq : q = place
        . subst hq
          exact ⟨(q, e), List.mem_cons_self, hprefix⟩
        . refine ⟨(q, e'), List.mem_cons_of_mem _ ?_, hprefix⟩
          rw [List.mem_filter]
          exact ⟨hmem, by simpa using hq⟩
    . cases h'

theorem walk_put {start target : List String} {pieces : List (List Char)} (e : FileEntry)
    (h : t.entry? place ≠ some .directory) (hwalk : t.walk start pieces = .ok target) :
    (t.put place e).walk start pieces = .ok target := by
  induction pieces generalizing start with
  | nil => exact hwalk
  | cons piece pieces ih =>
    unfold walk at hwalk ⊢
    split at hwalk
    . cases hwalk
    . cases hwalk
    . next hdirectory =>
      rw [entry?_put_of_directory e h hdirectory]
      simp only
      split at hwalk
      . next hcurrent =>
        rw [if_pos hcurrent]
        exact ih hwalk
      . next hcurrent =>
        rw [if_neg hcurrent]
        split at hwalk
        . next hparent =>
          rw [if_pos hparent]
          exact ih hwalk
        . next hparent =>
          rw [if_neg hparent]
          exact ih hwalk

theorem locate_put {p : Path} {target : List String} (e : FileEntry)
    (h : t.entry? place ≠ some .directory) (hlocate : t.locate p = .ok target) :
    (t.put place e).locate p = .ok target := by
  unfold locate at hlocate ⊢
  split at hlocate
  . cases hlocate
  . next hzero =>
    rw [if_neg hzero]
    split at hlocate
    . cases hlocate
    . next hempty =>
      rw [if_neg hempty]
      exact walk_put e h hlocate

section Place

variable {p q : Path}

theorem eq_of_walk {start : List String} {pieces : List (List Char)} (h : t.walk start pieces = .ok place) :
    place = ((pieces.filter Path.isStep).map Path.stepComponent).foldl enter start := by
  induction pieces generalizing start with
  | nil => exact (Except.ok.inj h).symm
  | cons piece pieces ih =>
    unfold walk at h
    split at h
    . cases h
    . cases h
    . split at h
      . next hcurrent =>
        rw [List.filter_cons_of_neg (by simp [Path.isStep, hcurrent])]
        exact ih h
      . next hcurrent =>
        rw [List.filter_cons_of_pos (by simpa [Path.isStep] using hcurrent), List.map_cons, List.foldl_cons]
        split at h
        . next hparent =>
          rw [Path.stepComponent, if_pos hparent]
          exact ih h
        . next hparent =>
          rw [Path.stepComponent, if_neg hparent]
          exact ih h

theorem placeOf_eq (t : FileTree) (p : Path) :
    t.placeOf p = (p.steps.map Path.stepComponent).foldl enter (t.origin p) := by
  have hanchor : p.anchor?.toList.foldl enter t.directory = t.origin p := by
    unfold Path.anchor? origin
    split
    . rfl
    . split
      . rfl
      . rfl
  unfold placeOf
  rw [Path.components_eq, List.foldl_append, hanchor]

theorem eq_placeOf_of_locate (h : t.locate p = .ok place) : place = t.placeOf p := by
  unfold locate at h
  split at h
  . cases h
  . split at h
    . cases h
    . rw [placeOf_eq]
      exact eq_of_walk h

theorem eq_of_locate {place' : List String} (h : p.simplified = q.simplified) (hp : t.locate p = .ok place)
    (hq : t.locate q = .ok place') : place = place' := by
  obtain ⟨habsolute, hsteps⟩ := Path.simplified_eq_iff.mp h
  rw [eq_placeOf_of_locate hp, eq_placeOf_of_locate hq, placeOf_eq, placeOf_eq, hsteps, origin, origin, habsolute]

end Place

structure Leads (t : FileTree) (p : Path) (place : List String) : Prop where
  located : t.locate p = .ok place
  vacant : (∃ content, t.entry? place = some (.file content)) ∨
    t.entry? place = none ∧ t.entry? place.dropLast = some .directory ∧
      p.pieces.getLast? ≠ some [] ∧ p.pieces.getLast? ≠ some ['.']

theorem Leads.entry?_ne {p : Path} (h : t.Leads p place) : t.entry? place ≠ some .directory := by
  rcases h.vacant with ⟨content, hentry⟩ | ⟨hentry, -⟩
  . rw [hentry]
    exact nofun
  . rw [hentry]
    exact nofun

theorem write_eq_ok_iff {t' : FileTree} {p : Path} {content : Bytes} :
    t.write p content = .ok t' ↔ ∃ place, t.Leads p place ∧ t' = t.put place (.file content) := by
  unfold write
  constructor
  . intro h
    obtain ⟨place, hlocate, h⟩ := exists_of_bind_eq_ok h
    refine ⟨place, ?_⟩
    cases hentry : t.entry? place with
    | some entry =>
      rw [hentry] at h
      cases entry with
      | directory => cases h
      | file old =>
        cases h
        exact ⟨⟨hlocate, .inl ⟨old, hentry⟩⟩, rfl⟩
    | none =>
      rw [hentry] at h
      dsimp only [bind, Except.bind] at h
      split at h
      . cases h
      . next hname =>
        simp only [Bool.or_eq_true, decide_eq_true_eq, not_or] at hname
        cases hdirectory : t.entry? place.dropLast with
        | none =>
          rw [hdirectory] at h
          cases h
        | some entry =>
          rw [hdirectory] at h
          cases entry with
          | file old => cases h
          | directory =>
            cases h
            exact ⟨⟨hlocate, .inr ⟨hentry, hdirectory, hname⟩⟩, rfl⟩
  . rintro ⟨place, ⟨hlocate, ⟨old, hentry⟩ | ⟨hentry, hdirectory, hname⟩⟩, rfl⟩
    . simp only [hlocate, hentry, bind, Except.bind]
      rfl
    . simp only [hlocate, hentry, hdirectory, hname, bind, Except.bind]
      rfl

theorem read_of_write {t' : FileTree} {p : Path} {content : Bytes}
    (h : t.write p content = .ok t') : t'.read p = .ok content := by
  obtain ⟨place, hleads, rfl⟩ := write_eq_ok_iff.mp h
  unfold read
  rw [locate_put (.file content) hleads.entry?_ne hleads.located]
  simp only [bind, Except.bind, entry?_put_self]
  rfl

section Insert

variable {above target : List String} {content : Bytes} {p : Path}

theorem entry?_put_above (e : FileEntry) (habove : above <+: target) (hne : above ≠ target)
    (hfile : ∀ content, t.entry? above ≠ some (.file content)) :
    entry? (t.put target e) above = some .directory := by
  unfold entry? at hfile ⊢
  rw [lookup_put_of_ne e hne]
  cases hlisted : t.entries.lookup above with
  | some entry =>
    rw [hlisted] at hfile
    cases entry with
    | file content => exact absurd rfl (hfile content)
    | directory => rfl
  | none =>
    apply if_pos
    rw [Bool.or_eq_true, List.any_eq_true]
    exact .inr ⟨(target, e), List.mem_cons_self, List.isPrefixOf_iff_prefix.mpr habove⟩

theorem walk_of_directories {start : List String} {pieces : List (List Char)}
    (hdown : ∀ piece ∈ pieces, piece ≠ ['.', '.']) (hlast : ∀ piece ∈ pieces.getLast?, Path.isStep piece = true)
    (htarget : target = start ++ (pieces.filter Path.isStep).map String.ofList)
    (h : ∀ above, above <+: target → above ≠ target → t.entry? above = some .directory) :
    t.walk start pieces = .ok target := by
  induction pieces generalizing start with
  | nil =>
    rw [htarget, List.filter_nil, List.map_nil, List.append_nil]
    rfl
  | cons piece pieces ih =>
    -- The last piece leads further, so what comes before it is not the end.
    have hne : start ≠ target := by
      have hmem := List.getLast?_eq_some_getLast (List.cons_ne_nil piece pieces)
      have hstep := List.mem_filter.mpr ⟨List.mem_of_getLast? hmem, hlast _ hmem⟩
      rw [htarget]
      intro hself
      have hnil := List.append_right_eq_self.mp hself.symm
      rw [List.map_eq_nil_iff.mp hnil] at hstep
      cases hstep
    have hprefix : start <+: target := ⟨_, htarget.symm⟩
    have hlast' : ∀ piece' ∈ pieces.getLast?, Path.isStep piece' = true := by
      intro piece' hmem
      cases pieces with
      | nil => cases hmem
      | cons next pieces => exact hlast piece' (by rwa [List.getLast?_cons_cons])
    have hdown' : ∀ piece' ∈ pieces, piece' ≠ ['.', '.'] :=
      fun piece' hmem => hdown piece' (List.mem_cons_of_mem piece hmem)
    unfold walk
    rw [h start hprefix hne]
    simp only
    split
    . next hcurrent =>
      rw [List.filter_cons_of_neg (by simp [Path.isStep, hcurrent])] at htarget
      exact ih hdown' hlast' htarget
    . next hcurrent =>
      rw [if_neg (hdown piece List.mem_cons_self)]
      rw [List.filter_cons_of_pos (by simpa [Path.isStep] using hcurrent), List.map_cons] at htarget
      exact ih hdown' hlast' (by rw [htarget, List.append_assoc, List.singleton_append])

structure IsFileName (p : Path) : Prop where
  ends : ∀ piece ∈ p.pieces.getLast?, Path.isStep piece = true
  down : ['.', '.'] ∉ p.pieces
  zero : '\x00' ∉ p.text.toList

theorem IsFileName.isEmpty_text (h : IsFileName p) : p.text.isEmpty = false := by
  rw [Bool.eq_false_iff]
  intro hempty
  have hpieces : p.pieces = [[]] := by
    rw [Path.pieces, String.isEmpty_iff.mp hempty]
    rfl
  have hstep := h.ends [] (by rw [hpieces]; rfl)
  cases hstep

theorem foldl_enter {steps : List (List Char)} (h : ['.', '.'] ∉ steps) (start : List String) :
    (steps.map Path.stepComponent).foldl enter start = start ++ steps.map String.ofList := by
  induction steps generalizing start with
  | nil => rw [List.map_nil, List.map_nil, List.append_nil, List.foldl_nil]
  | cons step steps ih =>
    obtain ⟨hstep, hsteps⟩ := List.ne_and_not_mem_of_not_mem_cons h
    rw [List.map_cons, List.foldl_cons, Path.stepComponent, if_neg hstep.symm, ih hsteps]
    simp [enter]

theorem IsFileName.placeOf_eq (h : IsFileName p) (t : FileTree) :
    t.placeOf p = t.origin p ++ p.steps.map String.ofList := by
  rw [FileTree.placeOf_eq]
  exact foldl_enter (fun hmem => h.down (List.mem_filter.mp hmem).1) _

theorem read_insert (h : IsFileName p)
    (hfree : ∀ above, above <+: t.placeOf p → above ≠ t.placeOf p → ∀ other, t.entry? above ≠ some (.file other)) :
    (t.insert p (.file content)).read p = .ok content := by
  have hlocate : (t.insert p (.file content)).locate p = .ok (t.placeOf p) := by
    unfold locate
    rw [if_neg (by simpa using h.zero), h.isEmpty_text]
    refine walk_of_directories (fun piece hpiece hup => h.down (hup ▸ hpiece)) h.ends (h.placeOf_eq t) ?_
    exact fun above habove hne => entry?_put_above _ habove hne (hfree above habove hne)
  unfold read
  rw [hlocate]
  simp only [bind, Except.bind, insert, entry?_put_self]
  rfl

end Insert

end ClusterRegistration.FileTree
