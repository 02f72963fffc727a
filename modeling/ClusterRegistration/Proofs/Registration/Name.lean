import Mathlib.Data.List.DropRight
import Mathlib.Data.List.SplitBy
import ClusterRegistration.Registration.Name

namespace ClusterRegistration.Registration

def Adjacent (c d : Char) : Prop :=
  isSeparator c = true → isSeparator d = false

instance : DecidableRel Adjacent :=
  fun c d => inferInstanceAs (Decidable (isSeparator c = true → isSeparator d = false))

structure IsSubdomain (name : String) : Prop where
  length : name.length ≤ 253
  chars : ∀ c ∈ name.toList, c.isLower = true ∨ c.isDigit = true ∨ isSeparator c = true
  first : ∃ c ∈ name.toList.head?, c.isAlphanum = true
  last : ∃ c ∈ name.toList.getLast?, c.isAlphanum = true
  adjacent : name.toList.IsChain Adjacent

inductive Spelled : Char → Char → Prop where
  | capital {c : Char} (h : c.isUpper = true) : Spelled c c.toLower
  | same {c : Char} (h : c.isLower = true ∨ c.isDigit = true ∨ isSeparator c = true) : Spelled c c
  | other {c : Char} (h : c.isAlphanum = false) (hseparator : isSeparator c = false) : Spelled c '-'

def firstsOfRuns (cs : List Char) : List Char :=
  (cs.splitBy fun c d => isSeparator c && isSeparator d).filterMap List.head?

def trimSeparators (cs : List Char) : List Char :=
  (cs.dropWhile isSeparator).rdropWhile isSeparator

instance (name : String) : Decidable (IsSubdomain name) :=
  decidable_of_iff
    (name.length ≤ 253 ∧ name.toList.all (fun c => c.isLower || c.isDigit || isSeparator c) = true ∧
      name.toList.head?.any Char.isAlphanum = true ∧ name.toList.getLast?.any Char.isAlphanum = true ∧
        name.toList.IsChain Adjacent)
    ⟨fun ⟨hlength, hchars, hfirst, hlast, hadjacent⟩ =>
        ⟨hlength, by simpa [or_assoc] using hchars, (Option.any_eq_true _ _).mp hfirst,
          (Option.any_eq_true _ _).mp hlast, hadjacent⟩,
      fun h => ⟨h.length, by simpa [or_assoc] using h.chars, (Option.any_eq_true _ _).mpr h.first,
        (Option.any_eq_true _ _).mpr h.last, h.adjacent⟩⟩

section Characters

variable {c d : Char}

theorem isAlphanum_eq (c : Char) : c.isAlphanum = (c.isUpper || c.isLower || c.isDigit) :=
  rfl

theorem isLower_eq (c : Char) : c.isLower = (decide ('a'.val ≤ c.val) && decide (c.val ≤ 'z'.val)) :=
  rfl

theorem isAlphanum_of_isLower (h : c.isLower = true) : c.isAlphanum = true := by
  rw [isAlphanum_eq, h, Bool.or_true, Bool.true_or]

theorem isAlphanum_of_isDigit (h : c.isDigit = true) : c.isAlphanum = true := by
  rw [isAlphanum_eq, h, Bool.or_true]

theorem isSeparator_of_isAlphanum (h : c.isAlphanum = true) : isSeparator c = false := by
  rw [Bool.eq_false_iff]
  intro hseparator
  simp only [isSeparator, Bool.or_eq_true, beq_iff_eq] at hseparator
  rcases hseparator with rfl | rfl
  . cases h
  . cases h

theorem isLower_toLower (h : c.isUpper = true) : c.toLower.isLower = true := by
  have hupper : c.val ≥ 'A'.val ∧ c.val ≤ 'Z'.val := of_decide_eq_true h
  have hlow : 65 ≤ c.val.toNat := UInt32.le_iff_toNat_le.mp hupper.1
  have hhigh : c.val.toNat ≤ 90 := UInt32.le_iff_toNat_le.mp hupper.2
  have hval : c.toLower.val = c.val + 32 := by
    unfold Char.toLower
    rw [dif_pos hupper]
    rfl
  simp only [isLower_eq, hval, Bool.and_eq_true, decide_eq_true_eq, UInt32.le_iff_toNat_le,
    UInt32.toNat_add, UInt32.reduceToNat, Char.reduceVal]
  omega

theorem toLower_of_not_isUpper (h : c.isUpper = false) : c.toLower = c := by
  unfold Char.toLower
  exact dif_neg (of_decide_eq_false h)

theorem spelled_nameChar (c : Char) : Spelled c (nameChar c) := by
  unfold nameChar
  cases hupper : c.isUpper with
  | true =>
    rw [if_pos (by simp [isLower_toLower hupper])]
    exact .capital hupper
  | false =>
    simp only [toLower_of_not_isUpper hupper]
    split
    . next hname =>
      apply Spelled.same
      simpa [or_assoc] using hname
    . next hname =>
      simp only [Bool.or_eq_true, not_or, Bool.not_eq_true] at hname
      apply Spelled.other
      . simp [isAlphanum_eq, hupper, hname]
      . exact hname.2

theorem Spelled.chars (h : Spelled c d) : d.isLower = true ∨ d.isDigit = true ∨ isSeparator d = true := by
  cases h with
  | capital h => exact .inl (isLower_toLower h)
  | same h => exact h
  | other h hseparator => exact .inr (.inr rfl)

theorem Spelled.isSeparator_eq (h : Spelled c d) : isSeparator d = !c.isAlphanum := by
  cases h with
  | capital h =>
    rw [isSeparator_of_isAlphanum (isAlphanum_of_isLower (isLower_toLower h))]
    simp [isAlphanum_eq, h]
  | same h =>
    cases halphanum : c.isAlphanum with
    | true => exact isSeparator_of_isAlphanum halphanum
    | false =>
      rcases h with h | h | h
      . rw [isAlphanum_of_isLower h] at halphanum
        cases halphanum
      . rw [isAlphanum_of_isDigit h] at halphanum
        cases halphanum
      . exact h
  | other h hseparator =>
    rw [h]
    rfl

theorem isAlphanum_of_chars (h : c.isLower = true ∨ c.isDigit = true ∨ isSeparator c = true)
    (hseparator : isSeparator c = false) : c.isAlphanum = true := by
  rcases h with h | h | h
  . exact isAlphanum_of_isLower h
  . exact isAlphanum_of_isDigit h
  . rw [hseparator] at h
    cases h

theorem nameChar_of_chars (h : c.isLower = true ∨ c.isDigit = true ∨ isSeparator c = true) : nameChar c = c := by
  have hupper : c.isUpper = false := by
    apply decide_eq_false
    simp only [isLower_eq, Char.isDigit, isSeparator, Bool.and_eq_true, Bool.or_eq_true, decide_eq_true_eq,
      beq_iff_eq, ge_iff_le, UInt32.le_iff_toNat_le, Char.reduceVal, UInt32.reduceToNat] at h ⊢
    rcases h with h | h | rfl | rfl
    . omega
    . omega
    . decide
    . decide
  unfold nameChar
  simp only [toLower_of_not_isUpper hupper]
  apply if_pos
  simpa [or_assoc] using h

end Characters

section Runs

variable {c : Char} {cs : List Char}

theorem squeeze_separator (h : isSeparator c = true) : squeeze false (c :: cs) = c :: squeeze true cs := by
  rw [squeeze, Bool.and_false, h]
  rfl

theorem squeeze_again (h : isSeparator c = true) : squeeze true (c :: cs) = squeeze true cs := by
  rw [squeeze, h]
  rfl

theorem squeeze_other (h : isSeparator c = false) (after : Bool) :
    squeeze after (c :: cs) = c :: squeeze false cs := by
  rw [squeeze, h]
  rfl

theorem squeeze_append {run : List Char} (h : ∀ c ∈ run, isSeparator c = true) (cs : List Char) :
    squeeze true (run ++ cs) = squeeze true cs := by
  induction run with
  | nil => rfl
  | cons c run ih =>
    rw [List.cons_append, squeeze_again (h c List.mem_cons_self)]
    exact ih fun d hd => h d (List.mem_cons_of_mem c hd)

theorem squeeze_of_head? (h : ∀ c ∈ cs.head?, isSeparator c = false) : squeeze true cs = squeeze false cs := by
  cases cs with
  | nil => rfl
  | cons c cs => rw [squeeze_other (h c rfl), squeeze_other (h c rfl)]

theorem head?_squeeze (cs : List Char) : ∀ c ∈ (squeeze true cs).head?, isSeparator c = false := by
  induction cs with
  | nil => nofun
  | cons c cs ih =>
    cases hc : isSeparator c with
    | true =>
      rw [squeeze_again hc]
      exact ih
    | false =>
      rw [squeeze_other hc]
      rintro d ⟨⟩
      exact hc

theorem dropWhile_squeeze (cs : List Char) : (squeeze true cs).dropWhile isSeparator = squeeze true cs := by
  have hhead := head?_squeeze cs
  cases hcs : squeeze true cs with
  | nil => rfl
  | cons c rest =>
    rw [hcs] at hhead
    exact List.dropWhile_cons_of_neg (by simp [hhead c rfl])

theorem squeeze_true_eq (cs : List Char) : squeeze true cs = (squeeze false cs).dropWhile isSeparator := by
  cases cs with
  | nil => rfl
  | cons c cs =>
    cases hc : isSeparator c with
    | true =>
      rw [squeeze_again hc, squeeze_separator hc, List.dropWhile_cons_of_pos hc]
      exact (dropWhile_squeeze cs).symm
    | false =>
      rw [squeeze_other hc, squeeze_other hc]
      exact (List.dropWhile_cons_of_neg (by simp [hc])).symm

theorem isSeparator_of_isChain (hc : isSeparator c = true)
    (h : (c :: cs).IsChain fun c d => (isSeparator c && isSeparator d) = true) :
    ∀ d ∈ c :: cs, isSeparator d = true := by
  induction cs generalizing c with
  | nil => simpa using hc
  | cons d cs ih =>
    rw [List.isChain_cons_cons, hc, Bool.true_and] at h
    exact List.forall_mem_cons.mpr ⟨hc, ih h.1 h.2⟩

theorem squeeze_flatten {runs : List (List Char)} (hne : [] ∉ runs)
    (hrun : ∀ run ∈ runs, run.IsChain fun c d => (isSeparator c && isSeparator d) = true)
    (hruns : runs.IsChain fun run next =>
      ∃ h h', (isSeparator (run.getLast h) && isSeparator (next.head h')) = false) :
    squeeze false runs.flatten = runs.filterMap List.head? := by
  induction runs with
  | nil => rfl
  | cons run runs ih =>
    obtain ⟨hnext, hruns⟩ := List.isChain_cons.mp hruns
    have ih := ih (fun h => hne (List.mem_cons_of_mem run h))
      (fun run' h => hrun run' (List.mem_cons_of_mem run h)) hruns
    cases run with
    | nil => exact absurd List.mem_cons_self hne
    | cons c run =>
      have hrun := hrun (c :: run) List.mem_cons_self
      rw [List.flatten_cons, List.cons_append, List.filterMap_cons_some List.head?_cons, ← ih]
      cases hc : isSeparator c with
      | false =>
        -- What is no separator is a run of its own.
        cases run with
        | nil => rw [squeeze_other hc, List.nil_append]
        | cons d run =>
          rw [List.isChain_cons_cons, hc] at hrun
          cases hrun.1
      | true =>
        have hall := isSeparator_of_isChain hc hrun
        rw [squeeze_separator hc, squeeze_append fun d hd => hall d (List.mem_cons_of_mem c hd)]
        congr 1
        apply squeeze_of_head?
        cases runs with
        | nil => nofun
        | cons next runs =>
          obtain ⟨_, h', hseparate⟩ := hnext next rfl
          rw [hall _ (List.getLast_mem _), Bool.true_and] at hseparate
          rw [List.flatten_cons, List.head?_append_of_ne_nil _ h', List.head?_eq_some_head h']
          rintro d ⟨⟩
          exact hseparate

theorem squeeze_false_eq (cs : List Char) : squeeze false cs = firstsOfRuns cs := by
  obtain ⟨hflatten, hne, hrun, hruns⟩ := List.splitBy_eq_iff.mp
    (rfl : cs.splitBy (fun c d => isSeparator c && isSeparator d) = _)
  rw [firstsOfRuns, ← squeeze_flatten hne hrun hruns, ← hflatten]

theorem adjacent_squeeze (after : Bool) (cs : List Char) : (squeeze after cs).IsChain Adjacent := by
  induction cs generalizing after with
  | nil => exact .nil
  | cons c cs ih =>
    cases hc : isSeparator c with
    | false =>
      rw [squeeze_other hc, List.isChain_cons]
      refine ⟨?_, ih false⟩
      intro d _ h
      rw [hc] at h
      cases h
    | true =>
      cases after with
      | false =>
        rw [squeeze_separator hc, List.isChain_cons]
        exact ⟨fun d hd _ => head?_squeeze cs d hd, ih true⟩
      | true =>
        rw [squeeze_again hc]
        exact ih true

theorem squeeze_of_adjacent (h : cs.IsChain Adjacent) : squeeze false cs = cs := by
  induction cs with
  | nil => rfl
  | cons c cs ih =>
    obtain ⟨hnext, h⟩ := List.isChain_cons.mp h
    have ih := ih h
    cases hc : isSeparator c with
    | false => rw [squeeze_other hc, ih]
    | true => rw [squeeze_separator hc, squeeze_of_head? fun d hd => hnext d hd hc, ih]

theorem subset_squeeze (after : Bool) (cs : List Char) : squeeze after cs ⊆ cs := by
  induction cs generalizing after with
  | nil => exact List.Subset.refl []
  | cons c cs ih =>
    rw [squeeze]
    split
    . exact List.subset_cons_of_subset c (ih true)
    . exact List.cons_subset_cons c (ih _)

theorem squeeze_eq_nil_iff : squeeze true cs = [] ↔ ∀ c ∈ cs, isSeparator c = true := by
  induction cs with
  | nil => simp [squeeze]
  | cons c cs ih =>
    cases hc : isSeparator c with
    | true => simp [squeeze_again hc, ih, hc]
    | false => simp [squeeze_other hc, hc]

end Runs

section Ends

variable {p : Char → Bool}

theorem rdropWhile_append_of_pos {cs ds : List Char} (h : ∀ d ∈ ds, p d = true) :
    (cs ++ ds).rdropWhile p = cs.rdropWhile p := by
  unfold List.rdropWhile
  rw [List.reverse_append, List.dropWhile_append_of_pos]
  simpa using h

theorem rdropWhile_take (n : Nat) (cs : List Char) :
    ((cs.rdropWhile p).take n).rdropWhile p = (cs.take n).rdropWhile p := by
  conv_rhs => rw [← List.rdropWhile_append_rtakeWhile (p := p) (l := cs), List.take_append]
  exact (rdropWhile_append_of_pos fun d hd => List.mem_rtakeWhile_imp (List.mem_of_mem_take hd)).symm

end Ends

theorem toList_defaultName (context : String) :
    (defaultName context).toList =
      ((squeeze true (context.toList.map nameChar)).take 253).rdropWhile isSeparator := by
  unfold defaultName
  rw [String.toList_ofList]
  rfl

theorem defaultName_eq_empty_iff {context : String} :
    defaultName context = "" ↔ ∀ c ∈ context.toList, c.isAlphanum = false := by
  have hempty : (defaultName context).toList = [] ↔ squeeze true (context.toList.map nameChar) = [] := by
    rw [toList_defaultName, List.rdropWhile_eq_nil_iff]
    have hhead := head?_squeeze (context.toList.map nameChar)
    cases hcs : squeeze true (context.toList.map nameChar) with
    | nil => simp
    | cons c rest =>
      rw [hcs] at hhead
      simp [hhead c rfl]
  rw [← String.toList_eq_nil_iff, hempty, squeeze_eq_nil_iff, List.forall_mem_map]
  simp only [(spelled_nameChar _).isSeparator_eq, Bool.not_eq_true']

theorem isSubdomain_defaultName {context : String} (h : defaultName context ≠ "") :
    IsSubdomain (defaultName context) := by
  have hne : (defaultName context).toList ≠ [] := by simpa using h
  have hfront : (defaultName context).toList <+: squeeze true (context.toList.map nameChar) := by
    rw [toList_defaultName]
    exact (List.rdropWhile_prefix _ _).trans (List.take_prefix _ _)
  have hchars : ∀ c ∈ (defaultName context).toList,
      c.isLower = true ∨ c.isDigit = true ∨ isSeparator c = true := by
    intro c hc
    obtain ⟨d, -, rfl⟩ := List.mem_map.mp (subset_squeeze _ _ (hfront.subset hc))
    exact (spelled_nameChar d).chars
  have hadjacent := List.IsChain.prefix (adjacent_squeeze _ _) hfront
  refine ⟨?_, hchars, ?_, ?_, hadjacent⟩
  . rw [← String.length_toList, toList_defaultName]
    exact (List.rdropWhile_prefix _ _).length_le.trans (List.length_take_le _ _)
  . refine ⟨_, List.head?_eq_some_head hne, ?_⟩
    apply isAlphanum_of_chars (hchars _ (List.head_mem hne))
    apply head?_squeeze (context.toList.map nameChar)
    rw [hfront.head hne]
    exact List.head?_eq_some_head _
  . refine ⟨_, List.getLast?_eq_some_getLast hne, ?_⟩
    apply isAlphanum_of_chars (hchars _ (List.getLast_mem hne))
    simp only [toList_defaultName] at hne ⊢
    simpa using List.rdropWhile_last_not isSeparator _ hne

theorem defaultName_of_isSubdomain {name : String} (h : IsSubdomain name) : defaultName name = name := by
  have hspelled : name.toList.map nameChar = name.toList := by
    conv_rhs => rw [← List.map_id name.toList]
    exact List.map_congr_left fun c hc => nameChar_of_chars (h.chars c hc)
  obtain ⟨c, hfirst, hc⟩ := h.first
  obtain ⟨d, hlast, hd⟩ := h.last
  rw [← String.toList_inj, toList_defaultName, hspelled, squeeze_of_head?, squeeze_of_adjacent h.adjacent,
    List.take_of_length_le h.length, List.rdropWhile_eq_self_iff]
  . intro hne
    rw [List.getLast?_eq_some_getLast hne] at hlast
    cases hlast
    simp [isSeparator_of_isAlphanum hd]
  . rw [hfirst]
    rintro c ⟨⟩
    exact isSeparator_of_isAlphanum hc

theorem defaultName_eq_trim (context : String) :
    (defaultName context).toList =
      ((trimSeparators (firstsOfRuns (context.toList.map nameChar))).take 253).rdropWhile isSeparator := by
  unfold trimSeparators
  rw [rdropWhile_take, ← squeeze_false_eq, ← squeeze_true_eq, toList_defaultName]

/--
The law of default names. A default name is empty or the name of an object. It is empty if the context has no
letter and no digit, and it is the context itself if that is the name of an object. Spell the context as a name,
keep the first separator of every run and drop those at the ends: the default name is what is left, or if that is
too long, its front without separators at the end.
-/
theorem default_name_law (context : String) :
    (defaultName context = "" ∨ IsSubdomain (defaultName context)) ∧
      (defaultName context = "" ↔ ∀ c ∈ context.toList, c.isAlphanum = false) ∧
      (IsSubdomain context → defaultName context = context) ∧
      defaultName (defaultName context) = defaultName context ∧
      ∃ spelled, List.Forall₂ Spelled context.toList spelled ∧
        (defaultName context).toList =
          ((trimSeparators (firstsOfRuns spelled)).take 253).rdropWhile isSeparator ∧
        ((trimSeparators (firstsOfRuns spelled)).length ≤ 253 →
          (defaultName context).toList = trimSeparators (firstsOfRuns spelled)) := by
  have hname : defaultName context = "" ∨ IsSubdomain (defaultName context) := by
    by_cases h : defaultName context = ""
    . exact .inl h
    . exact .inr (isSubdomain_defaultName h)
  refine ⟨hname, defaultName_eq_empty_iff, defaultName_of_isSubdomain, ?_, _, ?_, defaultName_eq_trim context,
    fun hlength => ?_⟩
  . rcases hname with h | h
    . rw [h]
      decide
    . exact defaultName_of_isSubdomain h
  . rw [List.forall₂_map_right_iff, List.forall₂_same]
    exact fun c _ => spelled_nameChar c
  . rw [defaultName_eq_trim, List.take_of_length_le hlength]
    exact List.rdropWhile_idempotent _ _

theorem default_name_law_of_sample :
    IsSubdomain "gke.west-1" ∧ defaultName "gke.west-1" = "gke.west-1" := by
  have hname : IsSubdomain "gke.west-1" := by decide +kernel
  obtain ⟨-, -, hsame, -⟩ := default_name_law "gke.west-1"
  exact ⟨hname, hsame hname⟩

example :
    (defaultName (String.ofList (List.replicate 252 'a' ++ '.' :: List.replicate 10 'b'))).toList =
      List.replicate 252 'a' := by
  rw [toList_defaultName, String.toList_ofList]
  decide +kernel

end ClusterRegistration.Registration
