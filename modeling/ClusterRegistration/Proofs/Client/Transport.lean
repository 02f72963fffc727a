import ClusterRegistration.Proofs.Client.Message

namespace ClusterRegistration

open Client Json

namespace Server

def Reply.response : Reply → Http.Response
  | .found j => ⟨200, Text.Utf8.encode j.render⟩
  | .created j => ⟨201, Text.Utf8.encode j.render⟩
  | .missing => ⟨404, Text.Utf8.encode "404 page not found"⟩
  | .taken => ⟨409, []⟩

def Reply.IsWritable : Reply → Prop
  | .found j => j.Writable maxNesting
  | .created j => j.Writable maxNesting
  | _ => True

theorem Reply.says_response {reply : Reply} (h : reply.IsWritable) : reply.Says reply.response := by
  cases reply with
  | found j => exact ⟨rfl, j, parse_render h, .refl j⟩
  | created j => exact ⟨rfl, j, parse_render h, .refl j⟩
  | missing =>
    refine ⟨rfl, fun s hs => ?_⟩
    have herror : (Json.Reader.run (ApiStatus.read ()) Reply.missing.response.body).isOk = false := by
      decide
    rw [hs] at herror
    cases herror
  | taken =>
    refine ⟨rfl, fun s hs => ?_⟩
    have herror : (Json.Reader.run (ApiStatus.read ()) Reply.taken.response.body).isOk = false := by
      decide
    rw [hs] at herror
    cases herror

def IsWritable (s : Store) : Prop :=
  ∀ e ∈ s.objects.entries, e.2.Writable (maxNesting - 2)

instance (s : Store) : Decidable (IsWritable s) :=
  inferInstanceAs (Decidable (∀ e ∈ s.objects.entries, e.2.Writable (maxNesting - 2)))

theorem writable_stored {k : Kind} {input : ObjectInput k} (h : k.SpecFits input.spec) (version : Nat) :
    (Store.stored (Store.created input version)).Writable (maxNesting - 2) :=
  writable_canonical _ (Object.writable_toJson 121 (Store.fits_created h version))

theorem isWritable_insert {s : Store} (h : IsWritable s) {key : Store.Key} {j : Json}
    (hj : j.Writable (maxNesting - 2)) (version : Nat) : IsWritable ⟨s.objects.insert key j, version⟩ := by
  intro e he
  rcases OrderedMap.mem_insertEntry he with rfl | he
  . exact hj
  . exact h e he

theorem isWritable_answer {s : Store} (h : IsWritable s) {r : Request} (hfits : r.Fits) :
    IsWritable (s.answer r).2 := by
  cases r with
  | get k item => exact h
  | list k scope => exact h
  | create k input =>
    unfold Store.answer Store.create
    dsimp only
    cases s.objects.contains (Store.Key.of k input.metadata.itemName) with
    | true => exact h
    | false => exact isWritable_insert h (writable_stored hfits _) _

theorem writable_collectionJson {s : Store} (h : IsWritable s) (r : Resource) (ns : Option String) :
    (collectionJson r (collection s r ns)).Writable maxNesting := by
  have hitems : (Json.array (collection s r ns)).Writable (maxNesting - 1) := by
    unfold collection
    refine writable_array _ _ (fun e he => h e (List.mem_of_mem_filter he))
  exact ⟨by simp, trivial, trivial, ⟨by simp, trivial, trivial, trivial⟩, hitems, trivial⟩

theorem isWritable_replyTo {s : Store} (h : IsWritable s) {r : Request} (hfits : r.Fits) :
    (replyTo s r).IsWritable := by
  cases r with
  | get k item =>
    show (lookup s (Store.Key.of k item)).IsWritable
    unfold lookup
    cases hget : s.objects.get? (Store.Key.of k item) with
    | none => trivial
    | some j =>
      have hj := h _ (s.objects.mem_of_get?_eq_some hget)
      exact hj.mono (Nat.sub_le maxNesting 2)
  | list k scope => exact writable_collectionJson h k.resource _
  | create k input =>
    show Reply.IsWritable (if s.objects.contains (Store.Key.of k input.metadata.itemName) then .taken
      else .created (Store.stored (Store.created input (s.version + 1))))
    split
    . trivial
    . exact (writable_stored hfits _).mono (Nat.sub_le maxNesting 2)

def transport (base : Uri) (message : Http.Request) :
    StateM {s : Store // IsWritable s} (Except String Http.Response) :=
  fun w =>
    match serve base w.1 message with
    | some (reply, s') =>
      if h : IsWritable s' then (.ok reply.response, ⟨s', h⟩) else (.ok ⟨400, []⟩, w)
    | none => (.ok ⟨400, []⟩, w)

theorem isServed_transport {session : Session} {base : Uri} (h : session.Reaches base) :
    session.IsServed base (transport base) Subtype.val := by
  intro w r message hr hmessage reply s' hserve
  have hreply := Session.serve_message h hr w.1 hmessage
  rw [hreply] at hserve
  cases hserve
  have hwritable := isWritable_answer w.2 hr.fits
  have hsend : (transport base message).run w =
      (.ok (replyTo w.1 r).response, ⟨(w.1.answer r).2, hwritable⟩) := by
    show transport base message w = _
    unfold transport
    rw [hreply]
    exact dif_pos hwritable
  rw [hsend]
  exact ⟨⟨_, rfl, Reply.says_response (isWritable_replyTo w.2 hr.fits)⟩, rfl⟩

end Server

end ClusterRegistration
