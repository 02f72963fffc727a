import ClusterRegistration.Proofs.Store.Enumeration
import ClusterRegistration.Proofs.Store.Recall

namespace ClusterRegistration.Store

def Operation.misplaces : Operation → Bool
  | .call _ => false
  | .replace k o => !k.isNamespaced && o.metadata.ns != ""

theorem Step.ns_written {t : Step} {w : Written} (h : t.written? = some w) :
    w.object.metadata.ns = w.key.ns ↔ t.op.misplaces = false := by
  rcases origin_of_written? h with ⟨k, input, hop, rfl⟩ | ⟨k, o, hop, rfl⟩
  . have hns : (created input (t.before.version + 1)).metadata.ns =
        (Key.of k (created input (t.before.version + 1)).metadata.itemName).ns := by
      rw [key_created]
      rfl
    have hplaces : t.op.misplaces = false := by
      rcases hop with hop | hop <;>
        . rw [hop]
          rfl
    exact iff_of_true hns hplaces
  . rw [hop]
    show o.metadata.ns = (Key.of k o.metadata.itemName).ns ↔
      (!k.isNamespaced && o.metadata.ns != "") = false
    cases hn : k.isNamespaced <;> simp [Key.of, ObjectMeta.itemName, hn]

def NamesAfter (ops : List Operation) (key : Key) (metadata : ObjectMeta) : Prop :=
  metadata.name = key.name ∧
    (metadata.ns = key.ns ↔
      ∀ t, empty.lastWrite? ops key = some t → t.op.misplaces = false)

section Runs

variable {ops : List Operation} {key : Key}

theorem exists_namesAfter {j : Json} (h : (empty.performAll ops).objects.get? key = some j) :
    ∃ t w, t ∈ empty.history ops ∧ t.written? = some w ∧ j = stored w.object ∧
      NamesAfter ops key w.object.metadata := by
  obtain ⟨t, w, hlast, hwritten, rfl, hj⟩ := exists_lastWrite? h
  refine ⟨t, w, (mem_history_of_lastWrite? hlast).1, hwritten, hj, rfl, ?_⟩
  rw [Step.ns_written hwritten, hlast]
  simp

variable {k : Kind}

theorem namesAfter_of_get (hfits : ∀ op ∈ ops, op.Fits) {item : ItemName} {o : Object k}
    (h : (empty.performAll ops).get k item = .ok o) : NamesAfter ops (Key.of k item) o.metadata := by
  unfold get at h
  split at h
  . next j hj =>
    obtain ⟨t, w, ht, hwritten, rfl, hnames⟩ := exists_namesAfter hj
    have hwfits := Step.fits_written (fits_of_mem_history hfits ht) hwritten
    rw [metadata_of_asKind_stored hwfits.1 h]
    exact hnames
  . cases h

end Runs

/--
The law of naming. Whatever is kept, got by name or listed has the name of its key, and also the namespace,
unless a controller has put it in last under a cluster-scoped kind and with a namespace.
-/
theorem naming_law (ops : List Operation) (hfits : ∀ op ∈ ops, op.Fits) :
    let s := empty.performAll ops
    (∀ key j, s.objects.get? key = some j →
      ∃ w : Written, j = stored w.object ∧ NamesAfter ops key w.object.metadata) ∧
      (∀ (k : Kind) (item : ItemName) (o : Object k), s.get k item = .ok o →
        NamesAfter ops (Key.of k item) o.metadata) ∧
      ∀ (k : Kind) (scope : Scope) (l : ObjectList k), s.list k scope = .ok l →
        ∀ o ∈ l.items, ∃ key, s.objects.contains key = true ∧ Selects k scope key ∧
          NamesAfter ops key o.metadata := by
  intro s
  refine ⟨?_, fun _ _ _ h => namesAfter_of_get hfits h, ?_⟩
  . intro key j hj
    obtain ⟨-, w, -, -, hj, hnames⟩ := exists_namesAfter hj
    exact ⟨w, hj, hnames⟩
  . intro k scope l hl o ho
    have hkeys : ∀ key ∈ s.listedKeys k scope, Key.of k key.itemName = key :=
      fun _ hmem => (reachable_performAll .empty hfits).of_itemName hmem
    obtain ⟨key, hmem, hget⟩ := exists_mem_of_forall₂ (forall₂_of_list hkeys hl) ho
    obtain ⟨hcontains, hselects⟩ := mem_listedKeys_iff.mp hmem
    have hnames := namesAfter_of_get hfits hget
    rw [hkeys key hmem] at hnames
    exact ⟨key, hcontains, hselects, hnames⟩

section Sample

theorem get_created_node :
    (empty.performAll (sampleRun.take 2)).get .node ⟨"n1", ""⟩ = .ok (created sampleNode 1) :=
  get_performAll (t := ⟨empty, .call (.ask (.create .node sampleNode))⟩)
    (fun op hop => fits_sampleRun op (List.mem_of_mem_take hop)) rfl rfl

theorem get_updated_node :
    (empty.performAll sampleRun).get .node ⟨"n1", ""⟩ = .ok (replaced sampleNodeUpdate 2) :=
  get_performAll (t := sampleUpdateStep) fits_sampleRun rfl rfl

theorem naming_law_of_sample :
    (∀ op ∈ sampleRun, op.Fits) ∧
      (empty.performAll (sampleRun.take 2)).get .node ⟨"n1", ""⟩ = .ok (created sampleNode 1) ∧
      NamesAfter (sampleRun.take 2) (Key.of .node ⟨"n1", ""⟩) (created sampleNode 1).metadata ∧
      (empty.performAll sampleRun).get .node ⟨"n1", ""⟩ = .ok (replaced sampleNodeUpdate 2) ∧
      NamesAfter sampleRun (Key.of .node ⟨"n1", ""⟩) (replaced sampleNodeUpdate 2).metadata := by
  have hfits : ∀ op ∈ sampleRun.take 2, op.Fits :=
    fun op hop => fits_sampleRun op (List.mem_of_mem_take hop)
  exact ⟨fits_sampleRun, get_created_node, (naming_law _ hfits).2.1 _ _ _ get_created_node,
    get_updated_node, (naming_law _ fits_sampleRun).2.1 _ _ _ get_updated_node⟩

theorem updated_node_misplaced :
    ¬ ∀ ops : List Operation, (∀ op ∈ ops, op.Fits) →
      ∀ (k : Kind) (item : ItemName) (o : Object k), (empty.performAll ops).get k item = .ok o →
        o.metadata.itemName = (Key.of k item).itemName := by
  intro hnames
  have hns := congrArg ItemName.ns (hnames sampleRun fits_sampleRun _ _ _ get_updated_node)
  exact absurd hns (by decide)

end Sample

end ClusterRegistration.Store
