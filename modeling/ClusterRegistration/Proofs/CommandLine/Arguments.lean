import ClusterRegistration.CommandLine.Run
import ClusterRegistration.Proofs.Record.Alike

namespace ClusterRegistration.CommandLine

section Numbers

structure Says (text : String) (n : Nat) : Prop where
  digits : ∃ digits : List Char, digits ≠ [] ∧ (∀ c ∈ digits, c.isDigit = true) ∧
    (text.toList = digits ∨ text.toList = '+' :: digits) ∧ n = Nat.ofDigitChars 10 digits 0
  bound : n < Nat.pow 2 64

theorem le_ofDigitChars (cs : List Char) (value : Nat) : value ≤ Nat.ofDigitChars 10 cs value := by
  induction cs generalizing value with
  | nil => exact Nat.le_refl value
  | cons c cs ih =>
    rw [Nat.ofDigitChars_cons]
    have hnext := ih (10 * value + (c.toNat - '0'.toNat))
    omega

theorem readDigits_eq_ok_iff {cs : List Char} {value n : Nat} (h : value < Nat.pow 2 64) :
    readDigits value cs = .ok n ↔
      (∀ c ∈ cs, c.isDigit = true) ∧ n = Nat.ofDigitChars 10 cs value ∧ n < Nat.pow 2 64 := by
  induction cs generalizing value with
  | nil =>
    rw [readDigits, Nat.ofDigitChars_nil, Except.ok.injEq]
    constructor
    . rintro rfl
      exact ⟨nofun, rfl, h⟩
    . rintro ⟨-, rfl, -⟩
      rfl
  | cons c cs ih =>
    rw [readDigits, List.forall_mem_cons, Nat.ofDigitChars_cons, Nat.mul_comm 10 value]
    cases hc : c.isDigit with
    | false => simp
    | true =>
      simp only [Bool.not_true, Bool.false_eq_true, ↓reduceIte, true_and]
      split
      . next hlt => exact ih hlt
      . next hlarge =>
        -- The digits that follow make the number no smaller.
        have hle := le_ofDigitChars cs (value * 10 + (c.toNat - '0'.toNat))
        refine iff_of_false nofun ?_
        rintro ⟨-, rfl, hbound⟩
        omega

theorem readNumber_eq_ok_iff {text : String} {n : Nat} : readNumber text = .ok n ↔ Says text n := by
  constructor
  . intro h
    unfold readNumber at h
    split at h
    . cases h
    . cases h
    . next cs hne htext =>
      obtain ⟨hdigits, hn, hbound⟩ := (readDigits_eq_ok_iff (by decide)).mp h
      exact ⟨⟨cs, hne, hdigits, .inr htext, hn⟩, hbound⟩
    . next hempty _ _ =>
      obtain ⟨hdigits, hn, hbound⟩ := (readDigits_eq_ok_iff (by decide)).mp h
      exact ⟨⟨_, hempty, hdigits, .inl rfl, hn⟩, hbound⟩
  . rintro ⟨⟨digits, hne, hdigits, htext, hn⟩, hbound⟩
    have hread := (readDigits_eq_ok_iff (show 0 < Nat.pow 2 64 by decide)).mpr ⟨hdigits, hn, hbound⟩
    obtain ⟨d, ds, rfl⟩ := List.exists_cons_of_ne_nil hne
    unfold readNumber
    rcases htext with htext | htext
    . have hplus : d ≠ '+' := by
        rintro rfl
        exact absurd (hdigits '+' List.mem_cons_self) (by decide)
      rw [htext]
      split
      . next heq => cases heq
      . next heq => exact absurd (List.cons.inj heq).1 hplus
      . next heq => exact absurd (List.cons.inj heq).1 hplus
      . exact hread
    . rw [htext]
      exact hread

end Numbers

section Accepted

structure Fits (values : List (Setting × String)) (s : Setting) (value : String) : Prop where
  fresh : s ∉ values.map (·.1)
  number : s.isNumber = true → ∃ n, Says value n
  path : s.isPath = true → value ≠ ""

def IsAcceptable (values : List (Setting × String)) : Prop :=
  ∀ before s value after, values = before ++ (s, value) :: after → Fits before s value

theorem isAcceptable_nil : IsAcceptable [] := by
  intro before s value after h
  exact absurd h.symm (List.append_ne_nil_of_right_ne_nil _ (List.cons_ne_nil _ _))

theorem IsAcceptable.append {values : List (Setting × String)} {s : Setting} {value : String}
    (h : IsAcceptable values) (hfits : Fits values s value) : IsAcceptable (values ++ [(s, value)]) := by
  intro before s' value' after heq
  rcases List.eq_nil_or_concat after with rfl | ⟨between, last, rfl⟩
  . obtain ⟨rfl, hlast⟩ := List.append_inj' heq rfl
    cases hlast
    exact hfits
  . rw [List.concat_eq_append, ← List.cons_append, ← List.append_assoc] at heq
    exact h before s' value' between (List.append_inj' heq rfl).1

theorem isPath_of_isNumber {s : Setting} (h : s.isNumber = true) : s.isPath = false := by
  cases s with
  | timeout | pollInterval => rfl
  | _ => cases h

theorem accept_eq_ok_iff {p q : Progress} {s : Setting} {value : String} :
    p.accept s value = .ok q ↔ Fits p.values s value ∧ q = ⟨p.values ++ [(s, value)], none⟩ := by
  have hused : p.used.contains s = true ↔ s ∈ p.values.map (·.1) := List.contains_iff_mem
  unfold Progress.accept
  constructor
  . intro h
    split at h
    . cases h
    . next hfresh =>
      rw [hused] at hfresh
      split at h
      . next hnumber =>
        split at h
        . next n hread =>
          cases h
          refine ⟨⟨hfresh, fun _ => ⟨n, readNumber_eq_ok_iff.mp hread⟩, ?_⟩, rfl⟩
          rw [isPath_of_isNumber hnumber]
          nofun
        . cases h
      . next hnumber =>
        split at h
        . cases h
        . next hpath =>
          cases h
          refine ⟨⟨hfresh, fun hs => absurd hs hnumber, ?_⟩, rfl⟩
          rintro hs rfl
          exact hpath (by simp [hs])
  . rintro ⟨⟨hfresh, hnumber, hpath⟩, rfl⟩
    rw [if_neg (hused.not.mpr hfresh)]
    cases hs : s.isNumber with
    | true =>
      obtain ⟨n, hn⟩ := hnumber hs
      rw [if_pos rfl, readNumber_eq_ok_iff.mpr hn]
    | false =>
      have hfilled : ¬(s.isPath && value.isEmpty) = true := by
        rw [Bool.and_eq_true, String.isEmpty_iff]
        exact fun ⟨hs, hempty⟩ => hpath hs hempty
      rw [if_neg Bool.false_ne_true, if_neg hfilled]

inductive Comes : Except Stop Progress → Prop where
  | read {p : Progress} (h : IsAcceptable p.values) : Comes (.ok p)
  | help : Comes (.error (.answer .help))
  | version : Comes (.error (.answer .version))
  | refused (e : ArgumentError) : Comes (.error (.refuse e))

theorem Comes.bind {x : Except Stop Progress} {f : Progress → Except Stop Progress} (hx : Comes x)
    (hf : ∀ p, IsAcceptable p.values → Comes (f p)) : Comes (x >>= f) := by
  cases hx with
  | read h => exact hf _ h
  | help => exact .help
  | version => exact .version
  | refused e => exact .refused e

variable {p : Progress}

theorem comes_accept (h : IsAcceptable p.values) (s : Setting) (value : String) : Comes (p.accept s value) := by
  cases haccept : p.accept s value with
  | ok q =>
    obtain ⟨hfits, rfl⟩ := accept_eq_ok_iff.mp haccept
    exact .read (h.append hfits)
  | error stop =>
    unfold Progress.accept at haccept
    split at haccept
    . cases haccept
      exact .refused _
    . split at haccept
      . split at haccept
        . cases haccept
        . cases haccept
          exact .refused _
      . split at haccept
        . cases haccept
          exact .refused _
        . cases haccept

theorem comes_settle (h : IsAcceptable p.values) : Comes p.settle := by
  unfold Progress.settle
  split
  . exact .read h
  . exact .refused _
  . exact comes_accept h _ _

theorem comes_readLong (h : IsAcceptable p.values) (text : List Char) : Comes (readLong p text) := by
  unfold readLong
  generalize splitOption text = option
  obtain ⟨name, value?⟩ := option
  dsimp only
  cases settingOf? name with
  | some s =>
    cases value? with
    | some value => exact (comes_settle h).bind fun _ hsettled => comes_accept hsettled s value
    | none => exact (comes_settle h).bind fun _ hsettled => .read hsettled
  | none =>
    cases value? with
    | some value =>
      dsimp only
      split
      . exact .refused _
      . split
        . exact .refused _
        . exact .refused _
    | none =>
      dsimp only
      split
      . exact (comes_settle h).bind fun _ _ => .help
      . split
        . exact (comes_settle h).bind fun _ _ => .version
        . exact .refused _

theorem comes_readShort (h : IsAcceptable p.values) (flag : Char) : Comes (readShort p flag) := by
  unfold readShort
  split
  . exact (comes_settle h).bind fun _ _ => .help
  . exact (comes_settle h).bind fun _ _ => .version
  . exact .refused _

theorem comes_readArguments (h : IsAcceptable p.values) (arguments : List String) :
    Comes (readArguments p arguments) := by
  -- What has been read so far is acceptable, and reading one more argument keeps it so.
  induction arguments generalizing p with
  | nil => exact comes_settle h
  | cons argument rest ih =>
    unfold readArguments
    split
    . split
      . exact comes_settle h
      . exact .refused _
    . exact (comes_readLong h _).bind fun _ hread => ih hread
    . exact (comes_readShort h _).bind fun _ hread => ih hread
    . split
      . apply ih
        exact h
      . exact .refused _

theorem exists_of_interpret {environment : String → Option String} {arguments : List String}
    {values : List (Setting × String)} (h : interpret environment arguments = .ok (.run values)) :
    ∃ given, IsAcceptable given ∧ values = withEnvironment environment given := by
  have hcomes : Comes (readArguments Progress.start arguments) := comes_readArguments isAcceptable_nil arguments
  unfold interpret at h
  cases hread : readArguments Progress.start arguments with
  | ok p =>
    rw [hread] at h hcomes
    cases hcomes with
    | read haccept =>
      dsimp only at h
      split at h
      . cases h
        exact ⟨p.values, haccept, rfl⟩
      . cases h
  | error stop =>
    rw [hread] at h hcomes
    cases hcomes with
    | help | version | refused => cases h

end Accepted

section Written

def written (values : List (Setting × String)) : List String :=
  values.map fun (s, value) => "--" ++ s.option ++ "=" ++ value

variable {p : Progress}

theorem splitOption_append {name : List Char} (h : '=' ∉ name) (value : List Char) :
    splitOption (name ++ '=' :: value) = (String.ofList name, some (String.ofList value)) := by
  have hname : ∀ c ∈ name, (c != '=') = true := by
    intro c hc
    exact bne_iff_ne.mpr fun heq => h (heq ▸ hc)
  unfold splitOption
  rw [List.takeWhile_append_of_pos hname, List.dropWhile_append_of_pos hname]
  simp

theorem readLong_written (h : p.pending = none) {s : Setting} {value : String} (hfits : Fits p.values s value) :
    readLong p (s.option.toList ++ '=' :: value.toList) = .ok ⟨p.values ++ [(s, value)], none⟩ := by
  have hname : '=' ∉ s.option.toList := by cases s <;> decide +kernel
  have hsetting : settingOf? s.option = some s := by cases s <;> rfl
  have hsettle : p.settle = .ok p := by rw [Progress.settle, h]
  unfold readLong
  rw [splitOption_append hname, String.ofList_toList, String.ofList_toList]
  simp only [hsetting, hsettle]
  exact accept_eq_ok_iff.mpr ⟨hfits, rfl⟩

theorem toList_written (s : Setting) (value : String) :
    ("--" ++ s.option ++ "=" ++ value).toList = '-' :: '-' :: (s.option.toList ++ '=' :: value.toList) := by
  simp [String.toList_append]

theorem readArguments_long {argument : String} {text : List Char} (h : argument.toList = '-' :: '-' :: text)
    (htext : text ≠ []) (p : Progress) (rest : List String) :
    readArguments p (argument :: rest) = readLong p text >>= fun p => readArguments p rest := by
  obtain ⟨c, cs, rfl⟩ := List.exists_cons_of_ne_nil htext
  rw [readArguments.eq_def]
  simp only [h]

theorem readArguments_written {before values : List (Setting × String)} (h : IsAcceptable (before ++ values)) :
    readArguments ⟨before, none⟩ (written values) = .ok ⟨before ++ values, none⟩ := by
  induction values generalizing before with
  | nil => rw [List.append_nil]; rfl
  | cons first rest ih =>
    obtain ⟨s, value⟩ := first
    have hfits : Fits before s value := h before s value rest rfl
    have hread := readLong_written (p := ⟨before, none⟩) rfl hfits
    have hargument := toList_written s value
    rw [List.append_cons] at h ⊢
    calc
      readArguments ⟨before, none⟩ (written ((s, value) :: rest))
        = readLong ⟨before, none⟩ (s.option.toList ++ '=' :: value.toList) >>=
            fun p => readArguments p (written rest) := readArguments_long hargument (by simp) _ _
      _ = readArguments ⟨before ++ [(s, value)], none⟩ (written rest) := by rw [hread]; rfl
      _ = .ok ⟨before ++ [(s, value)] ++ rest, none⟩ := ih h

theorem interpret_written (environment : String → Option String) {values : List (Setting × String)}
    (h : IsAcceptable values) (hrequired : ∀ s ∈ required, s ∈ values.map (·.1)) :
    interpret environment (written values) = .ok (.run (withEnvironment environment values)) := by
  have hread : readArguments Progress.start (written values) = .ok ⟨values, none⟩ :=
    @readArguments_written [] values h
  have hmissing : required.filter (fun s => !(withEnvironment environment values).any (·.1 = s)) = [] := by
    rw [List.filter_eq_nil_iff]
    intro s hs
    obtain ⟨⟨s', value⟩, hmem, rfl⟩ := List.mem_map.mp (hrequired s hs)
    simp only [Bool.not_eq_true', Bool.not_eq_false, List.any_eq_true, decide_eq_true_eq]
    exact ⟨(s', value), List.mem_append_left _ hmem, rfl⟩
  unfold interpret
  rw [hread]
  simp only [hmissing, List.isEmpty_nil, if_true]

end Written

section Values

variable {environment : String → Option String} {given values : List (Setting × String)} {s : Setting} {n : Nat}

theorem numberOf_eq (h : Says (valueOf values s) n) : numberOf values s = n := by
  rw [numberOf, readNumber_eq_ok_iff.mpr h]
  rfl

theorem valueOf_of_mem (h : IsAcceptable given) {value : String} (hmem : (s, value) ∈ given) :
    valueOf (withEnvironment environment given) s = value := by
  obtain ⟨before, after, rfl⟩ := List.append_of_mem hmem
  have hfresh := (h before s value after rfl).fresh
  have hlookup : (withEnvironment environment (before ++ (s, value) :: after)).lookup s = some value := by
    refine List.lookup_eq_some_iff.mpr ⟨before, _, List.append_assoc _ _ _, ?_⟩
    intro other hother
    exact bne_iff_ne.mpr fun heq => hfresh (heq ▸ List.mem_map_of_mem hother)
  rw [valueOf, hlookup]
  rfl

theorem numberOf_of_mem (h : IsAcceptable given) {value : String} (hmem : (s, value) ∈ given) (hn : Says value n) :
    numberOf (withEnvironment environment given) s = n := by
  apply numberOf_eq
  rw [valueOf_of_mem h hmem]
  exact hn

theorem says_of_mem_withEnvironment (h : IsAcceptable given) (hs : s.isNumber = true) {value : String}
    (hmem : (s, value) ∈ withEnvironment environment given) : ∃ n, Says value n := by
  rcases List.mem_append.mp hmem with hmem | hmem
  . obtain ⟨before, after, heq⟩ := List.append_of_mem hmem
    exact (h before s value after heq).number hs
  . obtain ⟨s', -, hs'⟩ := List.mem_filterMap.mp hmem
    split at hs'
    . cases hs'
    . obtain ⟨value', hvariable, heq⟩ := Option.map_eq_some_iff.mp hs'
      obtain ⟨rfl, rfl⟩ := Prod.mk.inj heq
      cases s' with
      | timeout | pollInterval => cases hvariable
      | _ => cases hs

theorem says_numberOf {arguments : List String} (h : interpret environment arguments = .ok (.run values))
    (hs : s.isNumber = true) : Says (valueOf values s) (numberOf values s) := by
  have hsays : ∃ n, Says (valueOf values s) n := by
    unfold valueOf
    cases hlookup : values.lookup s with
    | some value =>
      obtain ⟨given, hgiven, rfl⟩ := exists_of_interpret h
      obtain ⟨before, after, heq, -⟩ := List.lookup_eq_some_iff.mp hlookup
      have hmem : (s, value) ∈ withEnvironment environment given := by
        rw [heq]
        exact List.mem_append_right _ List.mem_cons_self
      exact says_of_mem_withEnvironment hgiven hs hmem
    | none =>
      cases s with
      | timeout => exact ⟨60, readNumber_eq_ok_iff.mp (by decide +kernel)⟩
      | pollInterval => exact ⟨1000, readNumber_eq_ok_iff.mp (by decide +kernel)⟩
      | _ => cases hs
  obtain ⟨n, hn⟩ := hsays
  rw [numberOf_eq hn]
  exact hn

theorem says_toString (h : n < Nat.pow 2 64) : Says (toString n) n := by
  refine ⟨⟨Nat.toDigits 10 n, Nat.toDigits_ne_nil, ?_, .inl ?_, ?_⟩, h⟩
  . exact fun c hc => Nat.isDigit_of_mem_toDigits (by decide) (by decide) hc
  . rw [Nat.toString_eq_repr, Nat.toList_repr]
  . rw [Nat.ofDigitChars_ten_toDigits]

theorem exists_interpret_of_numbers (environment : String → Option String) {timeout interval : Nat}
    (htimeout : timeout < Nat.pow 2 64) (hinterval : interval < Nat.pow 2 64) :
    ∃ arguments values, interpret environment arguments = .ok (.run values) ∧
      numberOf values .timeout = timeout ∧ numberOf values .pollInterval = interval := by
  let given : List (Setting × String) :=
    [(.sourceContext, ""), (.destContext, ""), (.timeout, toString timeout), (.pollInterval, toString interval)]
  have hgiven : IsAcceptable given := by
    refine (((isAcceptable_nil.append ?_).append ?_).append ?_).append ?_
    . exact ⟨by decide, nofun, nofun⟩
    . exact ⟨by decide, nofun, nofun⟩
    . exact ⟨by simp, fun _ => ⟨timeout, says_toString htimeout⟩, nofun⟩
    . exact ⟨by simp, fun _ => ⟨interval, says_toString hinterval⟩, nofun⟩
  have hrequired : ∀ s ∈ required, s ∈ given.map (·.1) := by
    simp [required, Setting.all, Setting.isRequired, given]
  refine ⟨written given, _, interpret_written environment hgiven hrequired, ?_, ?_⟩
  . exact numberOf_of_mem hgiven (by simp [given]) (says_toString htimeout)
  . exact numberOf_of_mem hgiven (by simp [given]) (says_toString hinterval)

end Values

end ClusterRegistration.CommandLine
