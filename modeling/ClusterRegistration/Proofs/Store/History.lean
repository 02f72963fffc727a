import ClusterRegistration.Client.Call
import ClusterRegistration.Proofs.Store.Reachable

/-!
This module contains the history of a store: what each operation does, and what holds after any number
of them. Every write takes the next version, and nothing else changes the store.
-/

namespace ClusterRegistration.Store

inductive Operation where
  | call (c : Call)
  | replace (k : Kind) (o : Object k)

namespace Operation

def Answer : Operation → Type
  | .call c => c.Answer
  | .replace k _ => Object k

def perform (s : Store) : (op : Operation) → Except ClusterError op.Answer × Store
  | .call c => (c.conclude ((s.answer c.request).1.mapError .store), (s.answer c.request).2)
  | .replace _ o =>
    match s.replace o with
    | .ok (o', s') => (.ok o', s')
    | .error e => (.error (.store e), s)

def isRead : Operation → Bool
  | .call c =>
    match c.request with
    | .create _ _ => false
    | _ => true
  | .replace _ _ => false

def isCreation : Operation → Bool
  | .call c =>
    match c.request with
    | .create _ _ => true
    | _ => false
  | .replace _ _ => false

end Operation

structure Written where
  kind : Kind
  object : Object kind

namespace Written

def key (w : Written) : Key :=
  Key.of w.kind w.object.metadata.itemName

def version (w : Written) : String :=
  w.object.metadata.resourceVersion

end Written

def Operation.written? : (op : Operation) → Except ClusterError op.Answer → Option Written
  | .call (.ask (.create k _)), .ok o => some ⟨k, o⟩
  | .call (.createIfAbsent k _), .ok (some o) => some ⟨k, o⟩
  | .replace k _, .ok o => some ⟨k, o⟩
  | _, _ => none

structure Step where
  before : Store
  op : Operation

namespace Step

def answer (t : Step) : Except ClusterError t.op.Answer :=
  (t.op.perform t.before).1

def after (t : Step) : Store :=
  (t.op.perform t.before).2

def written? (t : Step) : Option Written :=
  t.op.written? t.answer

def succeeds (t : Step) : Bool :=
  t.answer.isOk

def creates (t : Step) : Bool :=
  t.op.isCreation && t.written?.isSome

end Step

def history (s : Store) : List Operation → List Step
  | [] => []
  | op :: ops => ⟨s, op⟩ :: history (Step.after ⟨s, op⟩) ops

def performAll (s : Store) : List Operation → Store
  | [] => s
  | op :: ops => performAll (Step.after ⟨s, op⟩) ops

def versionOf? (j : Json) : Option String :=
  match (j.get? "metadata").bind (Json.get? "resourceVersion") with
  | some (.text s) => some s
  | _ => none

theorem versionOf?_stored {k : Kind} (o : Object k) :
    versionOf? (stored o) = some o.metadata.resourceVersion := by
  have hnone : (k.keptHeader o.header).1.lookup "metadata" = none := by
    rw [List.lookup_eq_none_iff]
    intro m hm
    rcases Kind.key_of_mem_keptHeader o.header m (.inl hm) with h | h | h <;> rw [h] <;> rfl
  have hmetadata : (stored o).get? "metadata" = some o.metadata.toJson.canonical := by
    rw [stored, Object.canonical_toJson]
    simp only [Json.get?, List.singleton_append, List.lookup_cons]
    rw [List.lookup_append, hnone]
    rfl
  unfold versionOf?
  rw [hmetadata, ObjectMeta.canonical_toJson]
  rfl

theorem toString_inj {m n : Nat} (h : toString m = toString n) : m = n := by
  have hdigits : Nat.toDigits 10 m = Nat.toDigits 10 n := by
    rw [← Nat.toList_repr, ← Nat.toList_repr]
    exact congrArg String.toList h
  rw [← Nat.ofDigitChars_toDigits (b := 10) (n := m) (by decide) (by decide), hdigits,
    Nat.ofDigitChars_toDigits (by decide) (by decide)]

namespace Step

theorem effect_of_create {s : Store} {k : Kind} (input : ObjectInput k) {op : Operation}
    (hop : op = .call (.ask (.create k input)) ∨ op = .call (.createIfAbsent k input)) :
    written? ⟨s, op⟩ = none ∧ after ⟨s, op⟩ = s ∧ s.objects.contains (inputKey input) = true ∨
      written? ⟨s, op⟩ = some ⟨k, created input (s.version + 1)⟩ ∧
        after ⟨s, op⟩ = s.write (inputKey input) (created input (s.version + 1)) ∧
        s.objects.contains (inputKey input) = false := by
  cases hkey : s.objects.contains (inputKey input) with
  | true =>
    have hcreate := create_of_contains hkey
    left
    rcases hop with rfl | rfl <;>
      simp [written?, answer, after, Operation.perform, Call.request, Call.conclude, Store.answer, hcreate,
        Except.mapError, Operation.written?, ClusterError.unlessExists, ClusterError.isAlreadyExists,
        Error.isAlreadyExists]
  | false =>
    have hcreate := create_of_absent hkey
    right
    rcases hop with rfl | rfl <;>
      simp [written?, answer, after, Operation.perform, Call.request, Call.conclude, Store.answer, hcreate,
        Except.mapError, Operation.written?, ClusterError.unlessExists]

theorem exists_write_of_create {s : Store} {k : Kind} (input : ObjectInput k) {op : Operation}
    (hop : op = .call (.ask (.create k input)) ∨ op = .call (.createIfAbsent k input)) :
    written? ⟨s, op⟩ = none ∧ after ⟨s, op⟩ = s ∨
      ∃ w, written? ⟨s, op⟩ = some w ∧ w.version = toString (s.version + 1) ∧
        after ⟨s, op⟩ = s.write w.key w.object ∧ s.objects.contains w.key = false := by
  rcases effect_of_create input hop (s := s) with ⟨hwritten, hafter, -⟩ | ⟨hwritten, hafter, hkey⟩
  . exact .inl ⟨hwritten, hafter⟩
  . right
    refine ⟨_, hwritten, rfl, ?_⟩
    unfold Written.key
    rw [key_created]
    exact ⟨hafter, hkey⟩

theorem isSome_written?_iff_of_create {s : Store} {k : Kind} (input : ObjectInput k) {op : Operation}
    (hop : op = .call (.ask (.create k input)) ∨ op = .call (.createIfAbsent k input)) :
    (written? ⟨s, op⟩).isSome = true ↔ s.objects.contains (inputKey input) = false := by
  rcases effect_of_create input hop (s := s) with ⟨hwritten, -, hkey⟩ | ⟨hwritten, -, hkey⟩
  . simp [hwritten, hkey]
  . simp [hwritten, hkey]

theorem effect_of_replace {s : Store} {k : Kind} (o : Object k) :
    written? ⟨s, .replace k o⟩ = none ∧ after ⟨s, .replace k o⟩ = s ∧
        s.objects.contains (Key.of k o.metadata.itemName) = false ∨
      written? ⟨s, .replace k o⟩ = some ⟨k, replaced o (s.version + 1)⟩ ∧
        after ⟨s, .replace k o⟩ =
          s.write (Key.of k o.metadata.itemName) (replaced o (s.version + 1)) ∧
        s.objects.contains (Key.of k o.metadata.itemName) = true := by
  cases hkey : s.objects.contains (Key.of k o.metadata.itemName) with
  | true =>
    have hreplace := replace_of_contains hkey
    right
    simp [written?, answer, after, Operation.perform, hreplace, Operation.written?]
  | false =>
    have hreplace := replace_of_absent hkey
    left
    simp [written?, answer, after, Operation.perform, hreplace, Operation.written?]

theorem effect_of_isRead {t : Step} (h : t.op.isRead = true) : t.written? = none ∧ t.after = t.before := by
  obtain ⟨s, op⟩ := t
  cases op with
  | call c =>
    cases c with
    | ask r =>
      cases r with
      | get k item => exact ⟨rfl, rfl⟩
      | list k scope => exact ⟨rfl, rfl⟩
      | create k input => cases h
    | createIfAbsent k input => cases h
    | existence k item => exact ⟨rfl, rfl⟩
  | replace k o => cases h

theorem effect (t : Step) :
    t.written? = none ∧ t.after = t.before ∨
      ∃ w, t.written? = some w ∧ w.version = toString (t.before.version + 1) ∧
        t.after = t.before.write w.key w.object ∧
        t.before.objects.contains w.key = !t.op.isCreation := by
  obtain ⟨s, op⟩ := t
  cases op with
  | call c =>
    cases c with
    | ask r =>
      cases r with
      | get k item => exact .inl (effect_of_isRead rfl)
      | list k scope => exact .inl (effect_of_isRead rfl)
      | create k input => exact exists_write_of_create input (.inl rfl)
    | createIfAbsent k input => exact exists_write_of_create input (.inr rfl)
    | existence k item => exact .inl (effect_of_isRead rfl)
  | replace k o =>
    rcases effect_of_replace o (s := s) with ⟨hwritten, hafter, -⟩ | ⟨hwritten, hafter, hkey⟩
    . exact .inl ⟨hwritten, hafter⟩
    . exact .inr ⟨_, hwritten, rfl, hafter, hkey⟩

def Replaces (t : Step) (key : Key) : Prop :=
  ∃ (k : Kind) (o : Object k), t.op = .replace k o ∧ t.succeeds = true ∧
    key = Key.of k o.metadata.itemName

structure IsLawful (t : Step) : Prop where
  create (k : Kind) (input : ObjectInput k) (h : t.op = .call (.ask (.create k input))) :
    t.succeeds = true ↔ t.before.objects.contains (inputKey input) = false
  createIfAbsent (k : Kind) (input : ObjectInput k) (h : t.op = .call (.createIfAbsent k input)) :
    t.succeeds = true ∧
      (t.written?.isSome = true ↔ t.before.objects.contains (inputKey input) = false)
  replace (k : Kind) (o : Object k) (h : t.op = .replace k o) :
    t.succeeds = true ↔ t.before.objects.contains (Key.of k o.metadata.itemName) = true
  unchanged (h : t.op.isRead = true ∨ t.succeeds = false ∨ t.written? = none) : t.after = t.before
  written (w : Written) (h : t.written? = some w) :
    t.after.objects.get? w.key = some (stored w.object)
  kept (key : Key) (j : Json) (h : t.before.objects.get? key = some j) :
    t.after.objects.contains key = true ∧ (t.after.objects.get? key = some j ∨ t.Replaces key)

theorem written?_of_error {t : Step} (h : t.succeeds = false) : t.written? = none := by
  obtain ⟨s, op⟩ := t
  unfold succeeds at h
  unfold written?
  cases hanswer : answer ⟨s, op⟩ with
  | ok a =>
    rw [hanswer] at h
    cases h
  | error e =>
    cases op with
    | call c =>
      cases c with
      | ask r => cases r <;> rfl
      | createIfAbsent k input => rfl
      | existence k item => rfl
    | replace k o => rfl

theorem succeeds_iff_of_create {s : Store} {k : Kind} (input : ObjectInput k) :
    succeeds ⟨s, .call (.ask (.create k input))⟩ =
      (written? ⟨s, .call (.ask (.create k input))⟩).isSome := by
  unfold succeeds written?
  cases answer ⟨s, .call (.ask (.create k input))⟩ <;> rfl

theorem succeeds_of_createIfAbsent {s : Store} {k : Kind} (input : ObjectInput k) :
    succeeds ⟨s, .call (.createIfAbsent k input)⟩ = true := by
  cases hkey : s.objects.contains (inputKey input) with
  | true =>
    simp [succeeds, answer, Operation.perform, Call.request, Call.conclude, Store.answer,
      create_of_contains hkey, Except.mapError, ClusterError.unlessExists, ClusterError.isAlreadyExists,
      Error.isAlreadyExists]
    rfl
  | false =>
    simp [succeeds, answer, Operation.perform, Call.request, Call.conclude, Store.answer,
      create_of_absent hkey, Except.mapError, ClusterError.unlessExists]
    rfl

theorem succeeds_iff_of_replace {s : Store} {k : Kind} (o : Object k) :
    succeeds ⟨s, .replace k o⟩ = (written? ⟨s, .replace k o⟩).isSome := by
  unfold succeeds written?
  cases answer ⟨s, .replace k o⟩ <;> rfl

theorem contains_after_of_contains (t : Step) {key : Key} (h : t.before.objects.contains key = true) :
    t.after.objects.contains key = true := by
  rcases t.effect with ⟨-, hafter⟩ | ⟨w, -, -, hafter, -⟩
  . rw [hafter]
    exact h
  . rw [hafter]
    by_cases hkey : key = w.key
    . rw [hkey, contains_write_self]
    . rw [contains_write_of_ne _ _ hkey]
      exact h

theorem replaces_of_written? {t : Step} {w : Written} (h : t.written? = some w)
    (hcreation : t.op.isCreation = false) : t.Replaces w.key := by
  obtain ⟨s, op⟩ := t
  cases op with
  | call c =>
    cases c with
    | ask r =>
      cases r with
      | get k item => cases h
      | list k scope => cases h
      | create k input => cases hcreation
    | createIfAbsent k input => cases hcreation
    | existence k item => cases h
  | replace k o =>
    rcases effect_of_replace o (s := s) with ⟨hnone, -, -⟩ | ⟨hwritten, -, -⟩
    . rw [h] at hnone
      cases hnone
    . refine ⟨k, o, rfl, ?_, ?_⟩
      . rw [succeeds_iff_of_replace, h]
        rfl
      . rw [h, Option.some_inj] at hwritten
        rw [hwritten]
        rfl

theorem isLawful (t : Step) : t.IsLawful where
  create k input h := by
    obtain ⟨s, op⟩ := t
    subst h
    rw [succeeds_iff_of_create]
    exact isSome_written?_iff_of_create input (.inl rfl)
  createIfAbsent k input h := by
    obtain ⟨s, op⟩ := t
    subst h
    exact ⟨succeeds_of_createIfAbsent input, isSome_written?_iff_of_create input (.inr rfl)⟩
  replace k o h := by
    obtain ⟨s, op⟩ := t
    subst h
    rw [succeeds_iff_of_replace]
    rcases effect_of_replace o (s := s) with ⟨hwritten, -, hkey⟩ | ⟨hwritten, -, hkey⟩ <;>
      simp [hwritten, hkey]
  unchanged h := by
    have hnone : t.written? = none := by
      rcases h with hread | hfails | hnone
      . exact (effect_of_isRead hread).1
      . exact written?_of_error hfails
      . exact hnone
    rcases t.effect with ⟨-, hafter⟩ | ⟨w, hwritten, -⟩
    . exact hafter
    . rw [hwritten] at hnone
      cases hnone
  written w h := by
    rcases t.effect with ⟨hnone, -⟩ | ⟨w', hwritten, -, hafter, -⟩
    . rw [h] at hnone
      cases hnone
    . rw [h] at hwritten
      cases hwritten
      rw [hafter]
      apply get?_write_self
  kept key j h := by
    have hcontains : t.before.objects.contains key = true := OrderedMap.contains_of_get? h
    refine ⟨t.contains_after_of_contains hcontains, ?_⟩
    rcases t.effect with ⟨-, hafter⟩ | ⟨w, hwritten, -, hafter, hkey⟩
    . rw [hafter]
      exact .inl h
    . by_cases heq : key = w.key
      -- A key that is taken is only written to by replacing its object.
      . right
        rw [heq] at hcontains ⊢
        rw [hcontains, Bool.true_eq, Bool.not_eq_true'] at hkey
        exact replaces_of_written? hwritten hkey
      . left
        rw [hafter, get?_write_of_ne _ _ heq]
        exact h

end Step

structure Numbered (s : Store) : Prop where
  bounded (key : Key) (j : Json) (h : s.objects.get? key = some j) :
    ∃ n ≤ s.version, versionOf? j = some (toString n)
  distinct (key key' : Key) (j j' : Json) (h : s.objects.get? key = some j)
    (h' : s.objects.get? key' = some j') (hversion : versionOf? j = versionOf? j') : key = key'

theorem numbered_empty : Numbered empty := by
  constructor <;> intros <;> contradiction

theorem numbered_write {s : Store} {k : Kind} {o : Object k} (h : s.Numbered)
    (hversion : o.metadata.resourceVersion = toString (s.version + 1)) (key : Key) :
    (s.write key o).Numbered := by
  have hstored : versionOf? (stored o) = some (toString (s.version + 1)) := by
    rw [versionOf?_stored, hversion]
  -- What was there before has a smaller version than what comes in.
  have hnew : ∀ key' j, s.objects.get? key' = some j → versionOf? j ≠ some (toString (s.version + 1)) := by
    intro key' j hj heq
    obtain ⟨n, hn, hj⟩ := h.bounded key' j hj
    rw [hj, Option.some_inj] at heq
    have := toString_inj heq
    omega
  constructor
  case bounded =>
    intro key' j hj
    by_cases hkey : key' = key
    . rw [hkey, get?_write_self, Option.some_inj] at hj
      rw [← hj]
      exact ⟨s.version + 1, Nat.le_refl _, hstored⟩
    . rw [get?_write_of_ne s o hkey] at hj
      obtain ⟨n, hn, hj⟩ := h.bounded key' j hj
      exact ⟨n, Nat.le_succ_of_le hn, hj⟩
  case distinct =>
    intro key₁ key₂ j₁ j₂ h₁ h₂ heq
    by_cases hkey₁ : key₁ = key <;> by_cases hkey₂ : key₂ = key
    . rw [hkey₁, hkey₂]
    . rw [hkey₁, get?_write_self, Option.some_inj] at h₁
      rw [get?_write_of_ne s o hkey₂] at h₂
      rw [← h₁, hstored] at heq
      exact absurd heq.symm (hnew _ _ h₂)
    . rw [hkey₂, get?_write_self, Option.some_inj] at h₂
      rw [get?_write_of_ne s o hkey₁] at h₁
      rw [← h₂, hstored] at heq
      exact absurd heq (hnew _ _ h₁)
    . rw [get?_write_of_ne s o hkey₁] at h₁
      rw [get?_write_of_ne s o hkey₂] at h₂
      exact h.distinct key₁ key₂ j₁ j₂ h₁ h₂ heq

theorem Step.numbered_after {t : Step} (h : t.before.Numbered) : t.after.Numbered := by
  rcases t.effect with ⟨-, hafter⟩ | ⟨w, -, hversion, hafter, -⟩
  . rw [hafter]
    exact h
  . rw [hafter]
    exact numbered_write h hversion w.key

theorem Step.size_after (t : Step) : t.after.size = t.before.size + t.creates.toNat := by
  unfold creates
  rcases t.effect with ⟨hwritten, hafter⟩ | ⟨w, hwritten, -, hafter, hkey⟩
  . rw [hwritten, hafter, Option.isSome_none, Bool.and_false]
    rfl
  . rw [hwritten, hafter, Option.isSome_some, Bool.and_true]
    cases hcreation : t.op.isCreation with
    | true =>
      rw [hcreation] at hkey
      exact OrderedMap.size_insert_of_absent _ _ hkey
    | false =>
      rw [hcreation] at hkey
      exact OrderedMap.size_insert_of_contains _ _ hkey

section History

variable (s : Store) (ops : List Operation)

theorem numbered_performAll {s : Store} (h : s.Numbered) : (s.performAll ops).Numbered := by
  induction ops generalizing s with
  | nil => exact h
  | cons op ops ih =>
    apply ih
    apply Step.numbered_after
    exact h

theorem versions_history :
    ∃ n, (s.performAll ops).version = s.version + n ∧
      ((s.history ops).filterMap Step.written?).map Written.version =
        (List.range' (s.version + 1) n).map toString := by
  induction ops generalizing s with
  | nil => exact ⟨0, rfl, rfl⟩
  | cons op ops ih =>
    obtain ⟨n, hversion, hwritten⟩ := ih (Step.after ⟨s, op⟩)
    -- A step that writes takes the next version, and any other step takes none.
    rcases Step.effect ⟨s, op⟩ with ⟨hnone, hafter⟩ | ⟨w, hsome, hw, hafter, -⟩
    . refine ⟨n, ?_, ?_⟩
      . rw [performAll, hversion, hafter]
      . rw [history, List.filterMap_cons_none hnone, hwritten, hafter]
    . refine ⟨n + 1, ?_, ?_⟩
      . rw [performAll, hversion, hafter]
        show s.version + 1 + n = s.version + (n + 1)
        omega
      . rw [history, List.filterMap_cons_some hsome, List.map_cons, hwritten, hw, hafter]
        rfl

theorem size_performAll :
    (s.performAll ops).size = s.size + (s.history ops).countP Step.creates := by
  induction ops generalizing s with
  | nil => rfl
  | cons op ops ih =>
    have hcount : (if Step.creates ⟨s, op⟩ = true then 1 else 0) = (Step.creates ⟨s, op⟩).toNat := by
      cases Step.creates ⟨s, op⟩ <;> rfl
    rw [performAll, ih, Step.size_after, history, List.countP_cons, hcount, Nat.add_right_comm,
      Nat.add_assoc]

theorem contains_performAll {s : Store} {key : Key} (h : s.objects.contains key = true) :
    (s.performAll ops).objects.contains key = true := by
  induction ops generalizing s with
  | nil => exact h
  | cons op ops ih =>
    apply ih
    exact Step.contains_after_of_contains ⟨s, op⟩ h

theorem get?_performAll {s : Store} {key : Key} {j : Json} (h : s.objects.get? key = some j)
    (hops : ∀ t ∈ s.history ops, ¬ t.Replaces key) :
    (s.performAll ops).objects.get? key = some j := by
  -- No step replaces the object, so each one keeps it for the steps after it.
  induction ops generalizing s with
  | nil => exact h
  | cons op ops ih =>
    rw [history, List.forall_mem_cons] at hops
    apply ih _ hops.2
    rcases ((Step.isLawful ⟨s, op⟩).kept key j h).2 with hkept | hreplaces
    . exact hkept
    . exact absurd hreplaces hops.1

end History

/--
The law of histories. The versions of what is written are 1, 2 and so on up to the version of the store, so
that no two objects have the same one; the store holds as many objects as were created; and what is there
stays, as it is unless it is replaced.
-/
theorem history_law (ops : List Operation) :
    let s := empty.performAll ops
    ((empty.history ops).filterMap Step.written?).map Written.version =
        (List.range' 1 s.version).map toString ∧
      s.Numbered ∧ s.size = (empty.history ops).countP Step.creates ∧
      (∀ t ∈ empty.history ops, t.IsLawful) ∧
      ∀ (later : List Operation) (key : Key) (j : Json), s.objects.get? key = some j →
        (s.performAll later).objects.contains key = true ∧
          ((∀ t ∈ s.history later, ¬ t.Replaces key) →
            (s.performAll later).objects.get? key = some j) := by
  intro s
  refine ⟨?_, numbered_performAll ops numbered_empty, ?_, fun t _ => t.isLawful, ?_⟩
  . obtain ⟨n, hversion, hwritten⟩ := versions_history empty ops
    rw [hwritten]
    show (List.range' (0 + 1) n).map toString = (List.range' 1 (empty.performAll ops).version).map toString
    rw [hversion]
    simp [empty]
  . have hsize := size_performAll empty ops
    rw [hsize]
    exact Nat.zero_add _
  . intro later key j hj
    refine ⟨?_, get?_performAll later hj⟩
    apply contains_performAll
    rw [OrderedMap.contains, hj]
    rfl

section Sample

def sampleInput : ObjectInput .secret :=
  ObjectInput.new (.named "token" "apps") () (SecretHeader.typed SecretHeader.opaqueType)

def sampleOperations : List Operation :=
  [.call (.ask (.create .secret sampleInput)), .call (.ask (.create .secret sampleInput)),
    .call (.existence .node ⟨"a", ""⟩)]

theorem get?_sample :
    (empty.performAll sampleOperations).objects.get? (inputKey sampleInput) =
      some (stored (created sampleInput 1)) := by
  have hcreated : empty.performAll [.call (.ask (.create .secret sampleInput))] =
      empty.write (inputKey sampleInput) (created sampleInput 1) := by
    rcases Step.effect_of_create sampleInput (s := empty) (.inl rfl) with ⟨-, -, hkey⟩ | ⟨-, hafter, -⟩
    . cases hkey
    . exact hafter
  have hget : (empty.performAll [.call (.ask (.create .secret sampleInput))]).objects.get?
      (inputKey sampleInput) = some (stored (created sampleInput 1)) := by
    rw [hcreated]
    apply get?_write_self
  -- Neither creating it again nor looking for something else replaces it.
  apply get?_performAll [_, _] hget
  intro t ht
  simp only [history, List.mem_cons, List.not_mem_nil, or_false] at ht
  rcases ht with rfl | rfl
  . rintro ⟨k, o, hop, -⟩
    cases hop
  . rintro ⟨k, o, hop, -⟩
    cases hop

theorem history_law_of_sample :
    let s := empty.performAll sampleOperations
    s.objects.get? (inputKey sampleInput) = some (stored (created sampleInput 1)) ∧
      (s.performAll [.call (.createIfAbsent .secret sampleInput)]).objects.get? (inputKey sampleInput) =
        some (stored (created sampleInput 1)) := by
  obtain ⟨-, -, -, -, hlater⟩ := history_law sampleOperations
  refine ⟨get?_sample, (hlater _ _ _ get?_sample).2 ?_⟩
  intro t ht
  simp only [history, List.mem_singleton] at ht
  subst ht
  rintro ⟨k, o, hop, -⟩
  cases hop

end Sample

end ClusterRegistration.Store
