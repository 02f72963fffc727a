import ClusterRegistration.Proofs.Client.Equivalence
import ClusterRegistration.Proofs.Object.RoundTrip

namespace ClusterRegistration

namespace Client

def Decodes (body : Bytes) (s : ApiStatus) : Prop :=
  Json.Reader.run (ApiStatus.read ()) body = .ok s

def IsPlain (body : Bytes) : Prop :=
  ∀ s, ¬ Decodes body s

def SaysMissing (response : Http.Response) : Prop :=
  (∃ s, Decodes response.body s ∧ (s.code = some 404 ∨ s.reason = some ApiStatus.reasonNotFound)) ∨
    IsPlain response.body ∧ response.status = 404

def SaysTaken (response : Http.Response) : Prop :=
  (∃ s, Decodes response.body s ∧ s.reason = some ApiStatus.reasonAlreadyExists) ∨
    IsPlain response.body ∧ response.status = 409

structure Reports (response : Http.Response) (s : ApiStatus) : Prop where
  decoded : ∀ d, Decodes response.body d → s = d
  plain : IsPlain response.body →
    s.code = some (response.status : Int) ∧ s.message = some (Text.Utf8.decodeLossy response.body) ∧
      ¬ (s.isNotFound = true ∧ s.isAlreadyExists = true)
  missing : s.isNotFound = true ↔ SaysMissing response
  taken : s.isAlreadyExists = true ↔ SaysTaken response

variable {response : Http.Response}

section Reasons

variable {status : Nat}

theorem reasonPhrase?_ne {phrase : String} (h : Http.reasonPhrase? status = some phrase) :
    (status ≠ 404 → String.ofList (phrase.toList.filter (· != ' ')) ≠ ApiStatus.reasonNotFound) ∧
      String.ofList (phrase.toList.filter (· != ' ')) ≠ ApiStatus.reasonAlreadyExists := by
  unfold Http.reasonPhrase? at h
  split at h <;> cases h <;> decide

theorem reasonOf_eq_notFound_iff :
    reasonOf status = some ApiStatus.reasonNotFound ↔ status = 404 := by
  constructor
  . intro h
    unfold reasonOf at h
    split at h
    . rfl
    . exact absurd h (by decide)
    . next hmissing _ =>
      obtain ⟨phrase, hphrase, h⟩ := Option.map_eq_some_iff.mp h
      exact absurd h ((reasonPhrase?_ne hphrase).1 hmissing)
  . rintro rfl
    rfl

theorem reasonOf_eq_alreadyExists_iff :
    reasonOf status = some ApiStatus.reasonAlreadyExists ↔ status = 409 := by
  constructor
  . intro h
    unfold reasonOf at h
    split at h
    . exact absurd h (by decide)
    . rfl
    . obtain ⟨phrase, hphrase, h⟩ := Option.map_eq_some_iff.mp h
      exact absurd h (reasonPhrase?_ne hphrase).2
  . rintro rfl
    rfl

end Reasons

theorem isNotFound_plainStatus : (plainStatus response).isNotFound = true ↔ response.status = 404 := by
  have hcode : (plainStatus response).code = some (response.status : Int) := rfl
  have hreason : (plainStatus response).reason = reasonOf response.status := rfl
  unfold ApiStatus.isNotFound
  rw [Bool.or_eq_true, decide_eq_true_iff, decide_eq_true_iff, hcode, hreason, reasonOf_eq_notFound_iff,
    Option.some_inj]
  omega

theorem isAlreadyExists_plainStatus :
    (plainStatus response).isAlreadyExists = true ↔ response.status = 409 := by
  have hreason : (plainStatus response).reason = reasonOf response.status := rfl
  unfold ApiStatus.isAlreadyExists
  rw [decide_eq_true_iff, hreason, reasonOf_eq_alreadyExists_iff]

theorem reports_of_decodes {s : ApiStatus} (h : Decodes response.body s) : Reports response s := by
  have hnotPlain : ¬ IsPlain response.body := fun hplain => hplain s h
  have hdecoded : ∀ d, Decodes response.body d → s = d := by
    intro d hd
    unfold Decodes at h hd
    rw [h] at hd
    injection hd
  refine ⟨hdecoded, fun hplain => absurd hplain hnotPlain, ?_, ?_⟩
  . unfold ApiStatus.isNotFound
    rw [Bool.or_eq_true, decide_eq_true_iff, decide_eq_true_iff]
    constructor
    . exact fun hs => .inl ⟨s, h, hs⟩
    . rintro (⟨d, hd, hs⟩ | ⟨hplain, -⟩)
      . rw [hdecoded d hd]
        exact hs
      . exact absurd hplain hnotPlain
  . unfold ApiStatus.isAlreadyExists
    rw [decide_eq_true_iff]
    constructor
    . exact fun hs => .inl ⟨s, h, hs⟩
    . rintro (⟨d, hd, hs⟩ | ⟨hplain, -⟩)
      . rw [hdecoded d hd]
        exact hs
      . exact absurd hplain hnotPlain

theorem reports_of_isPlain (h : IsPlain response.body) : Reports response (plainStatus response) := by
  refine ⟨fun d hd => absurd hd (h d), fun _ => ⟨rfl, rfl, ?_⟩, ?_, ?_⟩
  . rw [isNotFound_plainStatus, isAlreadyExists_plainStatus]
    rintro ⟨hmissing, htaken⟩
    rw [hmissing] at htaken
    cases htaken
  . rw [isNotFound_plainStatus]
    constructor
    . exact fun hstatus => .inr ⟨h, hstatus⟩
    . rintro (⟨s, hs, -⟩ | ⟨-, hstatus⟩)
      . exact absurd hs (h s)
      . exact hstatus
  . rw [isAlreadyExists_plainStatus]
    constructor
    . exact fun hstatus => .inr ⟨h, hstatus⟩
    . rintro (⟨s, hs, -⟩ | ⟨-, hstatus⟩)
      . exact absurd hs (h s)
      . exact hstatus

theorem reports_failureOf (response : Http.Response) : Reports response (failureOf response) := by
  unfold failureOf
  split
  . next s hs => exact reports_of_decodes hs
  . next e he =>
    apply reports_of_isPlain
    intro s hs
    unfold Decodes at hs
    rw [he] at hs
    cases hs

theorem isPlain_of_isOk {body : Bytes} (h : (Json.Reader.run (ApiStatus.read ()) body).isOk = false) :
    IsPlain body := by
  intro s hs
  unfold Decodes at hs
  rw [hs] at h
  cases h

theorem decodes_render {s : ApiStatus} (h : s.Fits) : Decodes (Text.Utf8.encode s.toJson.render) s := by
  have hbody := Json.parse_render (ApiStatus.writable_toJson 125 h)
  exact (Json.run_alike (ApiStatus.read_agrees Agreement.ofText) .whole hbody).eq_ok
    (ApiStatus.read_toJson .whole h)

theorem isSuccess_iff : response.isSuccess = true ↔ 200 ≤ response.status ∧ response.status ≤ 299 := by
  simp [Http.Response.isSuccess, Nat.lt_succ_iff]

namespace Session

variable {σ : Type} {session : Session} {send : Http.Request → StateM σ (Except String Http.Response)}
  {w : σ} {r : Request}

def Hears (session : Session) (send : Http.Request → StateM σ (Except String Http.Response)) (w : σ)
    (r : Request) (response : Http.Response) : Prop :=
  ∃ message, session.message r = .ok message ∧ ((send message).run w).1 = .ok response

theorem ask_of_hears (h : session.Hears send w r response) :
    ((session.ask send r).run w).1 = understand r response := by
  obtain ⟨message, hmessage, hsend⟩ := h
  rw [ask_of_message send hmessage, StateT.run_map]
  show receive r ((send message).run w).1 = _
  rw [hsend]
  rfl

theorem call_of_hears {c : Call} (h : session.Hears send w c.request response) :
    ((session.call send c).run w).1 =
      c.conclude ((understand c.request response).mapError .client) := by
  rw [← ask_of_hears h]
  rfl

theorem ask_of_failure (h : session.Hears send w r response) (hstatus : ¬ response.isSuccess = true) :
    ((session.ask send r).run w).1 = .error (.status (failureOf response)) := by
  rw [ask_of_hears h]
  unfold understand
  rw [if_neg hstatus]

theorem understand_of_isSuccess (hstatus : response.isSuccess = true) :
    (∃ a, understand r response = .ok a ∧ decodeAnswer r response.body = .ok a) ∨
      ∃ e, understand r response = .error (.json e) ∧ decodeAnswer r response.body = .error e := by
  unfold understand
  rw [if_pos hstatus]
  cases decodeAnswer r response.body with
  | ok a => exact .inl ⟨a, rfl, rfl⟩
  | error e => exact .inr ⟨e, rfl, rfl⟩

theorem understand_eq_ok_iff {a : r.Answer} :
    understand r response = .ok a ↔
      (200 ≤ response.status ∧ response.status ≤ 299) ∧ decodeAnswer r response.body = .ok a := by
  rw [← isSuccess_iff]
  by_cases hstatus : response.isSuccess = true
  . unfold understand
    rw [if_pos hstatus]
    cases decodeAnswer r response.body <;> simp [hstatus]
  . unfold understand
    rw [if_neg hstatus]
    simp [hstatus]

theorem understand_fails_iff {tells : Client.Error → Bool}
    (hjson : ∀ e, tells (.json e) = false) :
    (∃ e, understand r response = .error e ∧ tells e = true) ↔
      ¬ (200 ≤ response.status ∧ response.status ≤ 299) ∧ tells (.status (failureOf response)) = true := by
  rw [← isSuccess_iff]
  by_cases hstatus : response.isSuccess = true
  . refine iff_of_false ?_ (fun hfails => hfails.1 hstatus)
    rintro ⟨e, he, htells⟩
    rcases understand_of_isSuccess (r := r) hstatus with ⟨a, ha, -⟩ | ⟨e', he', -⟩
    . rw [ha] at he
      cases he
    . rw [he'] at he
      cases he
      rw [hjson] at htells
      cases htells
  . unfold understand
    rw [if_neg hstatus]
    constructor
    . rintro ⟨e, he, htells⟩
      cases he
      exact ⟨hstatus, htells⟩
    . exact fun h => ⟨_, rfl, h.2⟩

theorem existence_eq_false_iff {α : Type} {x : Except Error α} :
    ClusterError.existence (x.mapError .client) = .ok false ↔ ∃ e, x = .error e ∧ e.isNotFound = true := by
  cases x with
  | ok a => exact iff_of_false nofun nofun
  | error e =>
    show (if e.isNotFound then Except.ok false else .error (ClusterError.client e)) = _ ↔ _
    cases he : e.isNotFound <;> simp [he]

theorem unlessExists_eq_none_iff {α : Type} {x : Except Error α} :
    ClusterError.unlessExists (x.mapError .client) = .ok none ↔
      ∃ e, x = .error e ∧ e.isAlreadyExists = true := by
  cases x with
  | ok a => exact iff_of_false nofun nofun
  | error e =>
    show (if e.isAlreadyExists then Except.ok none else .error (ClusterError.client e)) = _ ↔ _
    cases he : e.isAlreadyExists <;> simp [he]

theorem existence_understand_eq_false_iff :
    ClusterError.existence ((understand r response).mapError .client) = .ok false ↔
      ¬ (200 ≤ response.status ∧ response.status ≤ 299) ∧ SaysMissing response := by
  rw [existence_eq_false_iff, understand_fails_iff (fun _ => rfl), ← (reports_failureOf response).missing]
  exact Iff.rfl

theorem unlessExists_understand_eq_none_iff :
    ClusterError.unlessExists ((understand r response).mapError .client) = .ok none ↔
      ¬ (200 ≤ response.status ∧ response.status ≤ 299) ∧ SaysTaken response := by
  rw [unlessExists_eq_none_iff, understand_fails_iff (fun _ => rfl), ← (reports_failureOf response).taken]
  exact Iff.rfl

/--
The law of responses. Outside of the successes, a request fails with the status that the response reports.
An object is missing or exists already if this status says so, and then only; no success says it.
-/
theorem classification_law (session : Session)
    (send : Http.Request → StateM σ (Except String Http.Response)) (w : σ) (response : Http.Response) :
    (∀ r, session.Hears send w r response →
      (¬ (200 ≤ response.status ∧ response.status ≤ 299) →
        ∃ s, ((session.ask send r).run w).1 = .error (.status s) ∧ Reports response s) ∧
      (200 ≤ response.status ∧ response.status ≤ 299 →
        ((∃ a, ((session.ask send r).run w).1 = .ok a ∧ decodeAnswer r response.body = .ok a) ∨
          ∃ e, ((session.ask send r).run w).1 = .error (.json e) ∧
            decodeAnswer r response.body = .error e) ∧
        ∀ e, ((session.ask send r).run w).1 = .error e →
          e.isNotFound = false ∧ e.isAlreadyExists = false)) ∧
    (∀ k item, session.Hears send w (.get k item) response →
      (((session.call send (.existence k item)).run w).1 = (.ok false : Except ClusterError Bool) ↔
        ¬ (200 ≤ response.status ∧ response.status ≤ 299) ∧ SaysMissing response)) ∧
    ∀ k input, session.Hears send w (.create k input) response →
      (((session.call send (.createIfAbsent k input)).run w).1 =
          (.ok none : Except ClusterError (Option (Object k))) ↔
        ¬ (200 ≤ response.status ∧ response.status ≤ 299) ∧ SaysTaken response) := by
  refine ⟨fun r h => ⟨fun hstatus => ?_, fun hstatus => ?_⟩, fun k item h => ?_, fun k input h => ?_⟩
  . rw [← isSuccess_iff] at hstatus
    exact ⟨_, ask_of_failure h hstatus, reports_failureOf response⟩
  . have hread := understand_of_isSuccess (r := r) (isSuccess_iff.mpr hstatus)
    rw [ask_of_hears h]
    refine ⟨hread, ?_⟩
    rintro e he
    rcases hread with ⟨a, ha, -⟩ | ⟨e', he', -⟩
    . rw [ha] at he
      cases he
    . rw [he'] at he
      cases he
      exact ⟨rfl, rfl⟩
  . exact (Eq.congr_left (call_of_hears (c := .existence k item) h)).trans
      (existence_understand_eq_false_iff (r := .get k item))
  . exact (Eq.congr_left (call_of_hears (c := .createIfAbsent k input) h)).trans
      (unlessExists_understand_eq_none_iff (r := .create k input))

section Sample

def sampleMissing : Http.Response :=
  ⟨404, Text.Utf8.encode "404 page not found"⟩

def sampleStatus : ApiStatus :=
  { (default : ApiStatus) with code := some 409, message := some "try again", verdict := .failure }

def sampleConflict : Http.Response :=
  ⟨409, Text.Utf8.encode sampleStatus.toJson.render⟩

theorem hears_sample (r : Request) (h : r.IsProper sample.host) (response : Http.Response) :
    sample.Hears (fun _ => pure (.ok response)) () r response :=
  ⟨_, message_eq reaches_sample h, rfl⟩

theorem isPlain_sampleMissing : IsPlain sampleMissing.body :=
  isPlain_of_isOk (by decide)

theorem decodes_sampleConflict : Decodes sampleConflict.body sampleStatus := by
  have hfits : sampleStatus.Fits := by
    intro code hcode
    have hcode : some (409 : Int) = some code := hcode
    rw [← Option.some.inj hcode]
    decide
  dsimp only [sampleConflict]
  exact decodes_render hfits

theorem not_saysTaken_sampleConflict : ¬ SaysTaken sampleConflict := by
  have hreports : Reports sampleConflict sampleStatus := by
    apply reports_of_decodes
    exact decodes_sampleConflict
  intro htaken
  exact absurd (hreports.taken.mpr htaken) (by decide)

theorem isProper_sampleName : (Request.get .secret ⟨"token", "apps"⟩).IsProper sample.host :=
  ⟨by decide, trivial, by decide⟩

theorem isProper_sampleInput : (Request.create .secret sampleInput).IsProper sample.host :=
  ⟨by decide, trivial, by decide⟩

theorem classification_law_of_sample :
    sample.Hears (fun _ => pure (.ok sampleMissing)) () (.get .secret ⟨"token", "apps"⟩)
        sampleMissing ∧
      ((sample.call (m := StateM Unit) (fun _ => pure (.ok sampleMissing))
        (.existence .secret ⟨"token", "apps"⟩)).run ()).1 = (.ok false : Except ClusterError Bool) ∧
      ((sample.call (m := StateM Unit) (fun _ => pure (.ok sampleConflict))
        (.createIfAbsent .secret sampleInput)).run ()).1 ≠
          (.ok none : Except ClusterError (Option (Object .secret))) := by
  have hmissing := hears_sample _ isProper_sampleName sampleMissing
  have htaken := hears_sample _ isProper_sampleInput sampleConflict
  refine ⟨hmissing, ?_, ?_⟩
  . rw [(classification_law sample _ () sampleMissing).2.1 _ _ hmissing]
    exact ⟨by decide, .inr ⟨isPlain_sampleMissing, rfl⟩⟩
  . intro htaken'
    exact not_saysTaken_sampleConflict
      (((classification_law sample _ () sampleConflict).2.2 _ _ htaken).mp htaken').2

end Sample

end Session

end Client

end ClusterRegistration
