import ClusterRegistration.Proofs.Client.Equivalence

/-!
This module contains what a client sends: a call ends up as one message, or as none if the token of the client
can not be written into a header.
-/

namespace ClusterRegistration

open Client

namespace Http

def IsHeaderChar (c : Char) : Prop :=
  c = '\t' ∨ 0x20 ≤ c.toNat ∧ c.toNat ≠ 0x7F

instance (c : Char) : Decidable (IsHeaderChar c) :=
  inferInstanceAs (Decidable (_ ∨ _))

theorem isHeaderByte_iff {b : UInt8} : isHeaderByte b = true ↔ b.toNat = 9 ∨ 0x20 ≤ b.toNat ∧ b.toNat ≠ 0x7F := by
  simp [isHeaderByte, UInt8.le_iff_toNat_le, ← UInt8.toNat_inj]

theorem all_encodeChar_iff {c : Char} : (Text.Utf8.encodeChar c).all isHeaderByte = true ↔ IsHeaderChar c := by
  rw [List.all_eq_true]
  by_cases hascii : c.toNat < 0x80
  . rw [Text.Utf8.encodeChar_of_lt hascii, List.forall_mem_singleton, isHeaderByte_iff,
      Text.Utf8.toNat_toUInt8 (by omega), IsHeaderChar, ← Char.toNat_inj]
    rfl
  . refine iff_of_true (fun b hb => ?_) (.inr (by omega))
    have hlow := Text.Utf8.le_of_mem_encodeChar hascii b hb
    exact isHeaderByte_iff.mpr (.inr (by omega))

theorem isHeaderValue_iff {s : String} : isHeaderValue s = true ↔ ∀ c ∈ s.toList, IsHeaderChar c := by
  unfold isHeaderValue Text.Utf8.encode
  rw [List.all_flatMap, List.all_eq_true]
  exact forall₂_congr fun c hc => all_encodeChar_iff

end Http

def Call.hear (c : Call) (a : Except String Http.Response) : Except ClusterError c.Answer :=
  c.conclude ((receive c.request a).mapError .client)

theorem Call.eq_error_of_conclude (c : Call) {a : Except ClusterError c.request.Answer} {e : ClusterError}
    (h : c.conclude a = .error e) : a = .error e := by
  cases a with
  | ok answer => cases c <;> cases h
  | error e' =>
    cases c with
    | ask r => exact h
    | createIfAbsent k input =>
      unfold conclude ClusterError.unlessExists at h
      dsimp only at h
      split at h
      . cases h
      . cases h
        rfl
    | existence k item =>
      unfold conclude ClusterError.existence at h
      dsimp only at h
      split at h
      . cases h
      . cases h
        rfl

namespace Client.Session

variable {session : Session} {r : Request} {c : Call} {uri : Uri} {message : Http.Request}

structure Sends (session : Session) (c : Call) (message : Http.Request) : Prop where
  made : ∀ {m : Type → Type} [Monad m] [LawfulMonad m] (send : Http.Request → m (Except String Http.Response)),
    session.call send c = c.hear <$> send message
  heard : ∀ a, c.hear a ≠ .error (.client .invalidHeader)

def IsMute (session : Session) (c : Call) : Prop :=
  ∀ {m : Type → Type} [Monad m] [LawfulMonad m] (send : Http.Request → m (Except String Http.Response)),
    session.call send c = pure (.error (.client .invalidHeader))

theorem receive_ne_invalidHeader (r : Request) (a : Except String Http.Response) :
    receive r a ≠ .error .invalidHeader := by
  cases a with
  | error reason => nofun
  | ok response =>
    show understand r response ≠ _
    unfold understand
    split
    . split <;> nofun
    . nofun

theorem hear_ne_invalidHeader (c : Call) (a : Except String Http.Response) :
    c.hear a ≠ .error (.client .invalidHeader) := by
  intro h
  have hreceive := c.eq_error_of_conclude h
  cases hanswer : receive c.request a with
  | ok answer =>
    rw [hanswer] at hreceive
    cases hreceive
  | error e =>
    rw [hanswer] at hreceive
    cases hreceive
    exact receive_ne_invalidHeader c.request a hanswer

theorem sends_of_message (h : session.message c.request = .ok message) : session.Sends c message where
  made send := by
    unfold call
    rw [ask_of_message send h, bind_pure_comp, Functor.map_map]
    rfl
  heard := hear_ne_invalidHeader c

theorem conclude_invalidHeader (c : Call) :
    c.conclude (.error (.client .invalidHeader)) = .error (.client .invalidHeader) := by
  cases c <;> rfl

theorem isMute_of_message (h : session.message c.request = .error .invalidHeader) : session.IsMute c := by
  intro m _ _ send
  unfold call ask
  rw [h, pure_bind]
  exact congrArg pure (conclude_invalidHeader c)

theorem Sends.not_isMute (h : session.Sends c message) : ¬ session.IsMute c := by
  intro hmute
  have hmade := h.made (m := Id) fun _ => .error ""
  rw [hmute] at hmade
  exact h.heard (.error "") hmade.symm

theorem message_of_address {token : String} (htoken : session.token = some token)
    (h : session.address r = .ok uri) :
    session.message r =
      if Http.isHeaderValue token then .ok ⟨method r, uri, session.headers r, body r⟩
      else .error .invalidHeader := by
  unfold message
  rw [h, htoken, Option.all_some, Http.isHeaderValue_bearer]

end Client.Session

end ClusterRegistration
