import ClusterRegistration.Proofs.Store.History

namespace ClusterRegistration.Store

def Operation.Fits : Operation → Prop
  | .call (.ask (.create k input)) => k.SpecFits input.spec
  | .call (.createIfAbsent k input) => k.SpecFits input.spec
  | .replace _ o => o.Fits
  | _ => True

namespace Step

def writesTo (t : Step) (key : Key) : Bool :=
  t.written?.any (fun w => w.key = key)

theorem writesTo_iff {t : Step} {key : Key} :
    t.writesTo key = true ↔ ∃ w, t.written? = some w ∧ w.key = key := by
  simp [writesTo, Option.any_eq_true]

theorem origin_of_written? {t : Step} {w : Written} (h : t.written? = some w) :
    (∃ (k : Kind) (input : ObjectInput k),
      (t.op = .call (.ask (.create k input)) ∨ t.op = .call (.createIfAbsent k input)) ∧
        w = ⟨k, created input (t.before.version + 1)⟩) ∨
      ∃ (k : Kind) (o : Object k), t.op = .replace k o ∧ w = ⟨k, replaced o (t.before.version + 1)⟩ := by
  have hcreate : ∀ (k : Kind) (input : ObjectInput k),
      t.op = .call (.ask (.create k input)) ∨ t.op = .call (.createIfAbsent k input) →
        w = ⟨k, created input (t.before.version + 1)⟩ := by
    intro k input hop
    rcases effect_of_create input (s := t.before) hop with ⟨hnone, -, -⟩ | ⟨hwritten, -, -⟩
    . exact absurd (h.symm.trans hnone) (Option.some_ne_none w)
    . exact Option.some_inj.mp (h.symm.trans hwritten)
  obtain ⟨s, op⟩ := t
  cases op with
  | call c =>
    cases c with
    | ask r =>
      cases r with
      | get k item => cases h
      | list k scope => cases h
      | create k input => exact .inl ⟨k, input, .inl rfl, hcreate k input (.inl rfl)⟩
    | createIfAbsent k input => exact .inl ⟨k, input, .inr rfl, hcreate k input (.inr rfl)⟩
    | existence k item => cases h
  | replace k o =>
    right
    refine ⟨k, o, rfl, ?_⟩
    rcases effect_of_replace o (s := s) with ⟨hnone, -, -⟩ | ⟨hwritten, -, -⟩
    . exact absurd (h.symm.trans hnone) (Option.some_ne_none w)
    . exact Option.some_inj.mp (h.symm.trans hwritten)

theorem fits_written {t : Step} {w : Written} (hfits : t.op.Fits) (h : t.written? = some w) :
    w.object.Fits := by
  rcases origin_of_written? h with ⟨k, input, hop, rfl⟩ | ⟨k, o, hop, rfl⟩
  . apply fits_created
    rcases hop with hop | hop <;>
      . rw [hop] at hfits
        exact hfits
  . rw [hop] at hfits
    exact hfits

theorem reachable_after {t : Step} (h : t.before.Reachable) (hfits : t.op.Fits) : t.after.Reachable := by
  rcases t.effect with ⟨-, hafter⟩ | ⟨w, hwritten, -, hafter, hkey⟩
  . rw [hafter]
    exact h
  rw [hafter]
  rcases origin_of_written? hwritten with ⟨k, input, hop, rfl⟩ | ⟨k, o, hop, rfl⟩
  . have hspec : k.SpecFits input.spec := (fits_written hfits hwritten).2
    have hcreation : t.op.isCreation = true := by
      rcases hop with hop | hop <;>
        . rw [hop]
          rfl
    rw [Written.key, key_created] at hkey ⊢
    rw [hcreation] at hkey
    exact h.create hspec (create_of_absent hkey)
  . rw [hop] at hfits hkey
    exact h.replace hfits (replace_of_contains hkey)

theorem get?_after_of_written? {t : Step} {w : Written} (h : t.written? = some w) :
    t.after.objects.get? w.key = some (stored w.object) :=
  t.isLawful.written w h

theorem get?_after_of_not_writesTo {t : Step} {key : Key} (h : t.writesTo key = false) :
    t.after.objects.get? key = t.before.objects.get? key := by
  rcases t.effect with ⟨-, hafter⟩ | ⟨w, hwritten, -, hafter, -⟩
  . rw [hafter]
  . have hkey : key ≠ w.key := by
      rintro rfl
      rw [writesTo_iff.mpr ⟨w, hwritten, rfl⟩] at h
      cases h
    rw [hafter, get?_write_of_ne _ _ hkey]

theorem contains_after_iff (t : Step) (key : Key) :
    t.after.objects.contains key = true ↔
      t.before.objects.contains key = true ∨ t.creates = true ∧ t.writesTo key = true := by
  rcases t.effect with ⟨hnone, hafter⟩ | ⟨w, hwritten, -, hafter, hkey⟩
  . rw [hafter, writesTo_iff, hnone]
    simp
  . have hcreates : t.creates = t.op.isCreation := by
      rw [creates, hwritten, Option.isSome_some, Bool.and_true]
    by_cases heq : w.key = key
    . subst heq
      have hself : t.after.objects.contains w.key = true :=
        OrderedMap.contains_of_get? (get?_after_of_written? hwritten)
      rw [hself, hkey, hcreates, writesTo_iff.mpr ⟨w, hwritten, rfl⟩]
      cases t.op.isCreation <;> simp
    . have hother : t.writesTo key = false := by
        rw [writesTo, hwritten]
        simp [heq]
      rw [OrderedMap.contains_congr (get?_after_of_not_writesTo hother), hother]
      simp

end Step

def lastWrite? (s : Store) (ops : List Operation) (key : Key) : Option Step :=
  ((s.history ops).filter (fun t => t.writesTo key)).getLast?

section Runs

variable {s : Store} {ops : List Operation} {key : Key}

theorem mem_history_of_lastWrite? {t : Step} (h : s.lastWrite? ops key = some t) :
    t ∈ s.history ops ∧ t.writesTo key = true :=
  List.mem_filter.mp (List.mem_of_getLast? h)

theorem lastWrite?_cons (s : Store) (op : Operation) (ops : List Operation) (key : Key) :
    s.lastWrite? (op :: ops) key =
      ((Step.after ⟨s, op⟩).lastWrite? ops key).or
        (if Step.writesTo ⟨s, op⟩ key = true then some ⟨s, op⟩ else none) := by
  unfold lastWrite?
  rw [history, List.filter_cons]
  split
  . rw [← List.singleton_append, List.getLast?_append]
    rfl
  . rw [Option.or_none]

theorem fits_of_mem_history {t : Step} (hfits : ∀ op ∈ ops, op.Fits) (h : t ∈ s.history ops) :
    t.op.Fits := by
  induction ops generalizing s with
  | nil => cases h
  | cons op ops ih =>
    rw [List.forall_mem_cons] at hfits
    rcases List.mem_cons.mp h with rfl | h
    . exact hfits.1
    . exact ih hfits.2 h

theorem reachable_performAll (h : s.Reachable) (hfits : ∀ op ∈ ops, op.Fits) :
    (s.performAll ops).Reachable := by
  induction ops generalizing s with
  | nil => exact h
  | cons op ops ih =>
    rw [List.forall_mem_cons] at hfits
    exact ih (Step.reachable_after h hfits.1) hfits.2

theorem get?_performAll_eq (s : Store) (ops : List Operation) (key : Key) :
    (s.performAll ops).objects.get? key =
      (((s.lastWrite? ops key).bind Step.written?).map (fun w => stored w.object)).or
        (s.objects.get? key) := by
  induction ops generalizing s with
  | nil => rfl
  | cons op ops ih =>
    rw [performAll, ih, lastWrite?_cons]
    cases hlast : (Step.after ⟨s, op⟩).lastWrite? ops key with
    | some t =>
      -- A later step writes to the key, so what this one does to it is lost.
      obtain ⟨w, hwritten, -⟩ := Step.writesTo_iff.mp (mem_history_of_lastWrite? hlast).2
      rw [Option.some_or, Option.bind_some, hwritten]
      rfl
    | none =>
      cases hwrites : Step.writesTo ⟨s, op⟩ key with
      | false => exact Step.get?_after_of_not_writesTo hwrites
      | true =>
        obtain ⟨w, hwritten, rfl⟩ := Step.writesTo_iff.mp hwrites
        rw [if_pos rfl, Option.none_or, Option.bind_some, hwritten]
        exact Step.get?_after_of_written? hwritten

theorem exists_lastWrite? {j : Json} (h : (empty.performAll ops).objects.get? key = some j) :
    ∃ t w, empty.lastWrite? ops key = some t ∧ t.written? = some w ∧ w.key = key ∧
      j = stored w.object := by
  rw [get?_performAll_eq] at h
  cases hlast : empty.lastWrite? ops key with
  | none =>
    rw [hlast] at h
    cases h
  | some t =>
    obtain ⟨w, hwritten, hkey⟩ := Step.writesTo_iff.mp (mem_history_of_lastWrite? hlast).2
    rw [hlast, Option.bind_some, hwritten] at h
    cases h
    exact ⟨t, w, rfl, hwritten, hkey, rfl⟩

theorem contains_performAll_iff (s : Store) (ops : List Operation) (key : Key) :
    (s.performAll ops).objects.contains key = true ↔
      s.objects.contains key = true ∨
        ∃ t ∈ s.history ops, t.creates = true ∧ t.writesTo key = true := by
  induction ops generalizing s with
  | nil => simp [performAll, history]
  | cons op ops ih =>
    rw [performAll, ih, Step.contains_after_iff, history, List.exists_mem_cons_iff, or_assoc]

theorem get_performAll {k : Kind} {o : Object k} {t : Step} {item : ItemName}
    (hfits : ∀ op ∈ ops, op.Fits) (hlast : s.lastWrite? ops (Key.of k item) = some t)
    (hwritten : t.written? = some ⟨k, o⟩) : (s.performAll ops).get k item = .ok o := by
  have hstored : (s.performAll ops).objects.get? (Key.of k item) = some (stored o) := by
    rw [get?_performAll_eq, hlast, Option.bind_some, hwritten]
    rfl
  unfold get
  rw [hstored]
  exact asKind_stored
    (Step.fits_written (fits_of_mem_history hfits (mem_history_of_lastWrite? hlast).1) hwritten)

end Runs

theorem get_of_absent {s : Store} {k : Kind} {item : ItemName}
    (h : s.objects.contains (Key.of k item) = false) :
    s.get k item = .error (.notFound (Key.label k (Key.of k item))) := by
  rw [OrderedMap.contains_eq_false_iff] at h
  rw [get, h]

theorem answer_get (s : Store) (k : Kind) (item : ItemName) :
    Step.answer ⟨s, .call (.ask (.get k item))⟩ = (s.get k item).mapError .store :=
  rfl

theorem answer_existence (s : Store) (k : Kind) (item : ItemName) :
    Step.answer ⟨s, .call (.existence k item)⟩ =
      ClusterError.existence ((s.get k item).mapError .store) :=
  rfl

/--
The law of reading. Whatever else is done to a store, an object that was the last to be written under its
key is what that key is read as, by whatever names it; and a key under which nothing was ever created is
not found.
-/
theorem recall_law (ops : List Operation) (hfits : ∀ op ∈ ops, op.Fits) (k : Kind) (item : ItemName) :
    let s := empty.performAll ops
    let key := Key.of k item
    (∀ (t : Step) (o : Object k), empty.lastWrite? ops key = some t → t.written? = some ⟨k, o⟩ →
      Key.of k o.metadata.itemName = key ∧
        (k.isNamespaced = false → ∀ ns, Key.of k ⟨item.name, ns⟩ = key) ∧
        ∀ item' : ItemName, Key.of k item' = key →
          Step.answer ⟨s, .call (.ask (.get k item'))⟩ = .ok o ∧
            Step.answer ⟨s, .call (.existence k item')⟩ = .ok true) ∧
      ((∀ t ∈ empty.history ops, t.creates = true → t.writesTo key = false) →
        ∀ item' : ItemName, Key.of k item' = key →
          Step.answer ⟨s, .call (.ask (.get k item'))⟩ =
              .error (.store (.notFound (Key.label k key))) ∧
            Step.answer ⟨s, .call (.existence k item')⟩ = .ok false) := by
  intro s key
  refine ⟨?written, ?absent⟩
  case written =>
    intro t o hlast hwritten
    refine ⟨?_, ?_, ?_⟩
    . obtain ⟨w, hw, hkey⟩ := Step.writesTo_iff.mp (mem_history_of_lastWrite? hlast).2
      rw [hwritten, Option.some_inj] at hw
      subst hw
      exact hkey
    . intro hscope ns
      show Key.of k ⟨item.name, ns⟩ = Key.of k item
      simp [Key.of, hscope]
    . intro item' hitem
      have hget : s.get k item' = .ok o := by
        rw [← hitem] at hlast
        exact get_performAll hfits hlast hwritten
      rw [answer_get, answer_existence, hget]
      exact ⟨rfl, rfl⟩
  case absent =>
    intro hnever item' hitem
    -- What was never created was never there, as nothing else brings a key in.
    have habsent : s.objects.contains key = false := by
      rw [← Bool.not_eq_true, contains_performAll_iff]
      rintro (hempty | ⟨t, ht, hcreates, hwrites⟩)
      . cases hempty
      . rw [hnever t ht hcreates] at hwrites
        cases hwrites
    rw [← hitem] at habsent ⊢
    rw [answer_get, answer_existence, get_of_absent habsent]
    exact ⟨rfl, rfl⟩

section Sample

def sampleNode : ObjectInput .node :=
  ObjectInput.new (.named "n1" "") (⟨false⟩ : NodeSpec)

def sampleNodeUpdate : Object .node :=
  { created sampleNode 1 with
    metadata := { (created sampleNode 1).metadata with ns := "apps" }
    spec := (⟨true⟩ : NodeSpec) }

def sampleRun : List Operation :=
  [.call (.ask (.create .node sampleNode)), .call (.existence .secret ⟨"n1", "apps"⟩),
    .replace .node sampleNodeUpdate, .call (.createIfAbsent .node sampleNode)]

def sampleUpdateStep : Step :=
  ⟨empty.performAll (sampleRun.take 2), .replace .node sampleNodeUpdate⟩

theorem fits_sampleRun : ∀ op ∈ sampleRun, op.Fits := by
  have hspec : Kind.SpecFits .node sampleNode.spec := trivial
  have hfits : sampleNodeUpdate.Fits := ⟨(fits_created hspec 1).1, trivial⟩
  intro op hop
  simp only [sampleRun, List.mem_cons, List.not_mem_nil, or_false] at hop
  rcases hop with rfl | rfl | rfl | rfl
  . exact trivial
  . exact trivial
  . exact hfits
  . exact trivial

theorem recall_law_of_sample :
    let s := empty.performAll sampleRun
    (∀ op ∈ sampleRun, op.Fits) ∧
      empty.lastWrite? sampleRun (Key.of .node ⟨"n1", "other"⟩) = some sampleUpdateStep ∧
      sampleUpdateStep.written? = some ⟨.node, replaced sampleNodeUpdate 2⟩ ∧
      Step.answer ⟨s, .call (.ask (.get .node ⟨"n1", "other"⟩))⟩ = .ok (replaced sampleNodeUpdate 2) ∧
      (∀ t ∈ empty.history sampleRun, t.creates = true →
        t.writesTo (Key.of .strictNode ⟨"n2", ""⟩) = false) ∧
      Step.answer ⟨s, .call (.existence .strictNode ⟨"n2", "apps"⟩)⟩ = .ok false := by
  have hlast : empty.lastWrite? sampleRun (Key.of .node ⟨"n1", "other"⟩) = some sampleUpdateStep := rfl
  have hwritten : sampleUpdateStep.written? = some ⟨.node, replaced sampleNodeUpdate 2⟩ := rfl
  have hnever : ∀ t ∈ empty.history sampleRun, t.creates = true →
      t.writesTo (Key.of .strictNode ⟨"n2", ""⟩) = false := by decide
  obtain ⟨-, -, hread⟩ := (recall_law sampleRun fits_sampleRun _ _).1 _ _ hlast hwritten
  have habsent := (recall_law sampleRun fits_sampleRun _ _).2 hnever
  exact ⟨fits_sampleRun, hlast, hwritten, (hread ⟨"n1", "other"⟩ rfl).1, hnever,
    (habsent ⟨"n2", "apps"⟩ rfl).2⟩

end Sample

end ClusterRegistration.Store
