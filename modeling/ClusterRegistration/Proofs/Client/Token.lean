import ClusterRegistration.Client.Connector
import ClusterRegistration.Proofs.Object.Member
import ClusterRegistration.Proofs.Object.Text

namespace ClusterRegistration

open Json Record

inductive CredentialStatus.Holds : Json → String → Prop where
  | member {ms : List (String × Json)} {token : String} (h : named "token" ms = [.text token]) :
    Holds (.object ms) token
  | item (expiry : Json) (token : String) : Holds (.array [expiry, .text token]) token

def Json.HoldsToken (j : Json) (token : String) : Prop :=
  ∃ ms status, j = .object ms ∧ named "status" ms = [status] ∧ CredentialStatus.Holds status token

section Reading

variable {o : Origin} {j : Json} {ms : List (String × Json)} {status : CredentialStatus}

theorem Json.Item.eq_text {s : String} (h : Item.text ⟨o, j⟩ = .ok s) : j = .text s := by
  cases j with
  | text s' =>
    cases h
    rfl
  | _ => cases h

theorem CredentialStatus.named_of_read
    (h : (CredentialStatus.read (⟨o, .object ms⟩ : Item) : Item.Reader CredentialStatus) = .ok status) :
    named "token" ms = [.text status.token] ∨ named "token" ms = [] ∧ status.token = "" := by
  have hspared : ∀ f ∈ ([
      .defaulted "expirationTimestamp" Source.text (fun s r => { r with expirationTimestamp := s }),
      .defaulted "token" Source.text (fun s r => { r with token := s })] :
        List (Field Item Item.Reader CredentialStatus)), f.key ≠ "token" → f.Spares CredentialStatus.token := by
    simp only [List.forall_mem_cons]
    refine ⟨fun _ => Field.spares_of_set fun _ _ => rfl, fun h => absurd rfl h, nofun⟩
  rcases Item.named_of_record "token" CredentialStatus.token (by rfl) (fun _ _ => rfl) hspared h with
    ⟨j, hnamed, hread⟩ | ⟨hnamed, hblank⟩
  . rw [Item.eq_text hread] at hnamed
    exact .inl hnamed
  . exact .inr ⟨hnamed, hblank⟩

theorem CredentialStatus.holds_of_read
    (h : (CredentialStatus.read (⟨o, j⟩ : Item) : Item.Reader CredentialStatus) = .ok status) :
    Holds j status.token ∨ (∀ token, ¬Holds j token) ∧ status.token = "" := by
  cases j with
  | object ms =>
    rcases named_of_read h with hnamed | ⟨hnamed, hblank⟩
    . exact .inl (.member hnamed)
    . refine .inr ⟨?_, hblank⟩
      rintro token ⟨htoken⟩
      rw [hnamed] at htoken
      cases htoken
  | array items =>
    -- In a list the expiry comes first and the token second, and there is nothing after it.
    cases items with
    | nil =>
      cases h
      exact .inr ⟨nofun, rfl⟩
    | cons expiry items =>
      obtain ⟨set, hset, h⟩ := exists_of_bind_eq_ok h
      cases items with
      | nil =>
        cases h
        have hspared : Field.Spares CredentialStatus.token (.defaulted "expirationTimestamp" Item.text
            (fun s r => { r with expirationTimestamp := s })) := Field.spares_of_set fun _ _ => rfl
        exact .inr ⟨nofun, hspared _ set hset default⟩
      | cons token items =>
        obtain ⟨set', hset', h⟩ := exists_of_bind_eq_ok h
        cases items with
        | nil =>
          cases h
          have htoken := Field.read_of_map CredentialStatus.token (fun _ _ => rfl) hset' (set default)
          rw [Item.eq_text htoken]
          exact .inl (.item expiry _)
        | cons surplus items => cases o <;> cases h
  | _ => cases h

theorem Object.named_of_read {credential : Object .execCredential}
    (h : (Object.read .execCredential (⟨o, .object ms⟩ : Item) : Item.Reader _) = .ok credential) :
    (∃ status, named "status" ms = [status] ∧
      (CredentialStatus.read (⟨o, status⟩ : Item) : Item.Reader _) = .ok credential.status) ∨
      named "status" ms = [] ∧ credential.status = (default : CredentialStatus) := by
  unfold Object.read at h
  obtain ⟨r, hr, h⟩ := exists_of_bind_eq_ok h
  obtain ⟨header, -, h⟩ := exists_of_bind_eq_ok h
  cases h
  refine WithOthers.named_of_read "status" (fun credential : Object .execCredential => credential.status) (by rfl)
    (fun _ _ => rfl) ?_ hr
  simp only [List.forall_mem_cons]
  refine ⟨?_, ?_, ?_, ?_, fun h => absurd rfl h, nofun⟩
  . exact fun _ => Field.spares_of_set fun _ _ => rfl
  . exact fun _ => Field.spares_of_set fun _ _ => rfl
  . exact fun _ => Field.spares_of_set fun _ _ => rfl
  . exact fun _ => Field.spares_of_set fun _ _ => rfl

theorem Object.holdsToken_of_read {credential : Object .execCredential}
    (h : (Object.read .execCredential (⟨o, j⟩ : Item) : Item.Reader _) = .ok credential) :
    j.HoldsToken (CredentialStatus.token credential.status) ∨
      (∀ token, ¬j.HoldsToken token) ∧ CredentialStatus.token credential.status = "" := by
  cases j with
  | object ms =>
    rcases named_of_read h with ⟨status, hnamed, hread⟩ | ⟨hnamed, hblank⟩
    . rcases CredentialStatus.holds_of_read hread with hholds | ⟨hnone, hblank⟩
      . exact .inl ⟨ms, status, rfl, hnamed, hholds⟩
      . refine .inr ⟨?_, hblank⟩
        rintro token ⟨_, status', ⟨⟩, hnamed', hholds⟩
        rw [hnamed] at hnamed'
        cases hnamed'
        exact hnone token hholds
    . refine .inr ⟨?_, by rw [hblank]; rfl⟩
      rintro token ⟨_, status, ⟨⟩, hnamed', -⟩
      rw [hnamed] at hnamed'
      cases hnamed'
  | _ => cases h

end Reading

namespace Client

variable {output : Except FileError Command.Output} {o : Command.Output} {token : String}

def Printed (output : Except FileError Command.Output) (token : String) : Prop :=
  ∃ o credential, output = .ok o ∧ Json.Reader.run (Object.read .execCredential ()) o.stdout = .ok credential ∧
    token = CredentialStatus.token credential.status

theorem tokenOf_eq_ok_iff : tokenOf output = .ok token ↔ Printed output token := by
  unfold tokenOf Printed
  cases output with
  | error e => exact iff_of_false nofun nofun
  | ok o =>
    dsimp only
    cases hread : Json.Reader.run (Object.read .execCredential ()) o.stdout with
    | error e =>
      refine iff_of_false nofun ?_
      rintro ⟨_, credential, ⟨⟩, hread', -⟩
      rw [hread] at hread'
      cases hread'
    | ok credential =>
      constructor
      . intro h
        cases h
        exact ⟨o, credential, rfl, hread, rfl⟩
      . rintro ⟨_, credential', ⟨⟩, hread', rfl⟩
        rw [hread] at hread'
        cases hread'
        rfl

theorem Printed.holdsToken {j : Json} (h : Printed (.ok o) token) (hj : Json.parse o.stdout = .ok j) :
    j.HoldsToken token ∨ (∀ t, ¬j.HoldsToken t) ∧ token = "" := by
  obtain ⟨_, credential, ⟨⟩, hread, rfl⟩ := h
  have halike := Json.run_alike (Object.read_agrees Agreement.ofText .execCredential) .whole hj
  exact Object.holdsToken_of_read (halike.ok_eq hread)

end Client

end ClusterRegistration
