import ClusterRegistration.Http.Playback
import ClusterRegistration.Proofs.Client.Classification
import ClusterRegistration.Proofs.Registration.Attempt
import ClusterRegistration.Registration.Remote

namespace ClusterRegistration

open Registration Client

def Request.IsIn (body : Bytes) : Request → Prop
  | .get _ _ => body = []
  | .list _ _ => body = []
  | .create k input => Json.Reader.run (ObjectInput.read k ()) body = .ok input

def Request.verb : Request → Http.Method
  | .get _ _ => .get
  | .list _ _ => .get
  | .create _ _ => .post

namespace Client.Session

structure Says (session : Session) (r : Request) (message : Http.Request) : Prop where
  method : message.method = r.verb
  uri : session.address r = .ok message.uri
  accept : ⟨"accept", "application/json"⟩ ∈ message.headers
  authorization : ∀ value, ⟨"authorization", value⟩ ∈ message.headers ↔
    ∃ token, session.token = some token ∧ value = "Bearer " ++ token
  body : r.IsIn message.body

structure CanSay (session : Session) (r : Request) : Prop where
  address : ∃ uri, session.address r = .ok uri
  token : session.token.all (fun token => Http.isHeaderValue ("Bearer " ++ token)) = true

variable {session : Session} {r : Request}

theorem authorization_headers (session : Session) (r : Request) (value : String) :
    ⟨"authorization", value⟩ ∈ session.headers r ↔
      ∃ token, session.token = some token ∧ value = "Bearer " ++ token := by
  have hcommon : ⟨"authorization", value⟩ ∈ session.commonHeaders ↔
      ∃ token, session.token = some token ∧ value = "Bearer " ++ token := by
    unfold commonHeaders
    cases session.token <;> simp
  rw [← hcommon]
  unfold headers
  cases method r with
  | get => exact Iff.rfl
  | post => simp

theorem accept_headers (session : Session) (r : Request) :
    ⟨"accept", "application/json"⟩ ∈ session.headers r := by
  have hcommon : ⟨"accept", "application/json"⟩ ∈ session.commonHeaders := by
    unfold commonHeaders
    cases session.token <;> exact List.mem_cons_self
  unfold headers
  cases method r with
  | get => exact hcommon
  | post => exact List.mem_append_left _ hcommon

theorem isIn_body (h : r.Fits) : r.IsIn (body r) := by
  cases r with
  | get k item => rfl
  | list k scope => rfl
  | create k input =>
    have hbody := Json.parse_render (ObjectInput.writable_toJson 123 h)
    exact (Json.run_alike (ObjectInput.read_agrees Agreement.ofText k) .whole hbody).eq_ok
      (ObjectInput.read_toJson .whole h)

theorem CanSay.exists_message (h : session.CanSay r) (hfits : r.Fits) :
    ∃ message, session.message r = .ok message ∧ session.Says r message := by
  obtain ⟨uri, huri⟩ := h.address
  refine ⟨⟨method r, uri, session.headers r, body r⟩, ?_, ?_⟩
  . unfold message
    rw [huri]
    exact if_pos h.token
  . refine ⟨?_, huri, session.accept_headers r, session.authorization_headers r, isIn_body hfits⟩
    cases r <;> rfl

theorem Reaches.canSay {base : Uri} {r : Request} (h : session.Reaches base)
    (hr : r.IsProper session.host) : session.CanSay r where
  address := ⟨r.addressBelow base, (session.address_eq r).trans (parse_addressText h hr)⟩
  token := h.isHeaderValue

end Client.Session

section Responses

variable {r : Request} {responses : List (Except String Http.Response)}

def Grants (responses : List (Except String Http.Response)) (r : Request) (a : r.Answer) : Prop :=
  ∃ response rest, responses = .ok response :: rest ∧
    (200 ≤ response.status ∧ response.status ≤ 299) ∧ decodeAnswer r response.body = .ok a

def Misses (responses : List (Except String Http.Response)) : Prop :=
  ∃ response rest, responses = .ok response :: rest ∧
    ¬ (200 ≤ response.status ∧ response.status ≤ 299) ∧ SaysMissing response

def Keeps (responses : List (Except String Http.Response)) : Prop :=
  ∃ response rest, responses = .ok response :: rest ∧
    ¬ (200 ≤ response.status ∧ response.status ≤ 299) ∧ SaysTaken response

def heard (r : Request) : List (Except String Http.Response) → Except Client.Error r.Answer
  | .ok response :: _ => understand r response
  | .error reason :: _ => .error (.io reason)
  | [] => .error (.io "no response")

theorem heard_eq_ok_iff {a : r.Answer} : heard r responses = .ok a ↔ Grants responses r a := by
  constructor
  . intro h
    match responses with
    | [] => cases h
    | .error reason :: rest => cases h
    | .ok response :: rest => exact ⟨response, rest, rfl, Session.understand_eq_ok_iff.mp h⟩
  . rintro ⟨response, rest, rfl, h⟩
    exact Session.understand_eq_ok_iff.mpr h

theorem heard_fails_iff {tells : Client.Error → Bool} (hio : ∀ reason, tells (.io reason) = false)
    (hjson : ∀ e, tells (.json e) = false) :
    (∃ e, heard r responses = .error e ∧ tells e = true) ↔
      ∃ response rest, responses = .ok response :: rest ∧
        ¬ (200 ≤ response.status ∧ response.status ≤ 299) ∧
          tells (.status (failureOf response)) = true := by
  constructor
  . rintro ⟨e, he, htells⟩
    match responses with
    | [] =>
      cases he
      rw [hio] at htells
      cases htells
    | .error reason :: rest =>
      cases he
      rw [hio] at htells
      cases htells
    | .ok response :: rest =>
      exact ⟨response, rest, rfl, (Session.understand_fails_iff hjson).mp ⟨e, he, htells⟩⟩
  . rintro ⟨response, rest, rfl, h⟩
    exact (Session.understand_fails_iff hjson).mpr h

theorem heard_isNotFound_iff :
    (∃ e, heard r responses = .error e ∧ e.isNotFound = true) ↔ Misses responses := by
  rw [heard_fails_iff (fun _ => rfl) (fun _ => rfl)]
  unfold Misses
  simp only [← (reports_failureOf _).missing]
  exact Iff.rfl

theorem heard_isAlreadyExists_iff :
    (∃ e, heard r responses = .error e ∧ e.isAlreadyExists = true) ↔ Keeps responses := by
  rw [heard_fails_iff (fun _ => rfl) (fun _ => rfl)]
  unfold Keeps
  simp only [← (reports_failureOf _).taken]
  exact Iff.rfl

end Responses

namespace Client.Session

variable {α : Type} {session : Session} {now : Nat} {deadline : Deadline} {side : Side}
  {r : Request} {message : Http.Request}

def converse (session : Session) (now : Nat) (deadline : Deadline) (script : Script α) :
    StateM Http.Playback (Except Registration.Error α) :=
  script.run (Clock.still now) deadline (performRemote (fun _ => session) Http.Playback.send)

def exchange (session : Session) (now : Nat) (deadline : Deadline) (script : Script α)
    (responses : List (Except String Http.Response)) :
    Except Registration.Error α × List Http.Request :=
  let ended := session.converse now deadline script (Http.Playback.start responses)
  (ended.1, ended.2.requests)

theorem ask_playback (h : session.message r = .ok message) (p : Http.Playback) :
    session.ask Http.Playback.send r p = (heard r p.pending, ⟨p.pending.tail, message :: p.sent⟩) := by
  unfold ask
  rw [h]
  obtain ⟨pending, sent⟩ := p
  match pending with
  | [] => rfl
  | .error reason :: rest => rfl
  | .ok response :: rest => rfl

theorem performRemote_ask (h : session.message r = .ok message) (p : Http.Playback) :
    performRemote (fun _ => session) Http.Playback.send (.ask side operation r) p =
      (some ((heard r p.pending).mapError .client), ⟨p.pending.tail, message :: p.sent⟩) := by
  rw [performRemote, stateM_bind, ask_playback h]
  cases heard r p.pending <;> rfl

theorem converse_ask (hdeadline : deadline.isOver now = false) (h : session.message r = .ok message)
    (next : Except ClusterError r.Answer → Script α) (p : Http.Playback) :
    session.converse now deadline ((Script.ask side operation r).bind next) p =
      session.converse now deadline (next ((heard r p.pending).mapError .client))
        ⟨p.pending.tail, message :: p.sent⟩ := by
  apply Carrier.run_act_of_ok
  have hnow : (Clock.still (m := StateM Http.Playback) now).now p = (now, p) := rfl
  simp only [Deadline.guard, stateM_bind, hnow, hdeadline, Bool.false_eq_true, ↓reduceIte,
    performRemote_ask h]
  rfl

theorem converse_done (result : Except Registration.Error α) (p : Http.Playback) :
    session.converse now deadline (.done result) p = (result, p) :=
  rfl

theorem converse_createIfAbsent (hdeadline : deadline.isOver now = false) {k : Kind} {input : ObjectInput k}
    (h : session.message (.create k input) = .ok message) (side : Side) (operation : String)
    (p : Http.Playback) :
    ∃ result, session.converse now deadline (Script.createIfAbsent side operation input) p =
        (result, ⟨p.pending.tail, message :: p.sent⟩) ∧
      (result = .ok () ↔ (∃ o, Grants p.pending (.create k input) o) ∨ Keeps p.pending) := by
  rw [Script.createIfAbsent_eq, converse_ask hdeadline h]
  simp only [← heard_eq_ok_iff, ← heard_isAlreadyExists_iff (r := .create k input)]
  cases heard (.create k input) p.pending with
  | ok o => exact ⟨.ok (), rfl, by simp⟩
  | error e =>
    cases he : e.isAlreadyExists with
    | true =>
      refine ⟨.ok (), ?_, by simp [he]⟩
      show session.converse now deadline (Script.acknowledge operation (.error (.client e))) _ = _
      rw [Script.acknowledge_of_isAlreadyExists (e := .client e) he, converse_done]
    | false =>
      refine ⟨.error (.api operation (.client e)), ?_, by simp [he]⟩
      show session.converse now deadline (Script.acknowledge operation (.error (.client e))) _ = _
      rw [Script.acknowledge_of_error (e := .client e) he]
      rfl

theorem acknowledge_fail (α : Type) {γ : Type} (operation : String) (answer : Except ClusterError γ)
    (e : Registration.Error) :
    ∃ e', (Script.acknowledge operation answer).bind (fun _ => (Script.fail e : Script α)) =
      .done (.error e') := by
  cases answer with
  | ok a => exact ⟨e, rfl⟩
  | error source =>
    cases hexists : source.isAlreadyExists with
    | true =>
      rw [Script.acknowledge_of_isAlreadyExists hexists]
      exact ⟨e, rfl⟩
    | false =>
      rw [Script.acknowledge_of_error hexists]
      exact ⟨.api operation source, rfl⟩

theorem converse_createIfAbsent_fail (hdeadline : deadline.isOver now = false) {k : Kind}
    {input : ObjectInput k} (h : session.message (.create k input) = .ok message)
    (side : Side) (operation : String) (e : Registration.Error) (p : Http.Playback) :
    ∃ e', session.converse now deadline
        ((Script.createIfAbsent side operation input).bind (fun _ => (Script.fail e : Script α))) p =
      (.error e', ⟨p.pending.tail, message :: p.sent⟩) := by
  rw [Script.createIfAbsent_eq, Script.bind_assoc, converse_ask hdeadline h]
  obtain ⟨e', he'⟩ := acknowledge_fail α operation
    ((heard (.create k input) p.pending).mapError ClusterError.client) e
  rw [he', converse_done]
  exact ⟨e', rfl⟩

end Client.Session

namespace Registration.Identity

def accountQuestion (i : Identity) : Request :=
  .get .serviceAccount i.accountName

def accountCreation (i : Identity) : Request :=
  .create .serviceAccount i.accountInput

def secretsQuestion (i : Identity) : Request :=
  .list .secret (.inNamespace i.ns)

def placeholderCreation (i : Identity) : Request :=
  .create .secret i.placeholder

def requests (i : Identity) : List Request :=
  [i.accountQuestion, i.accountCreation, i.secretsQuestion, i.placeholderCreation]

theorem fits_requests (i : Identity) : ∀ r ∈ i.requests, r.Fits := by
  intro r hr
  simp only [requests, List.mem_cons, List.not_mem_nil, or_false] at hr
  rcases hr with rfl | rfl | rfl | rfl <;> exact trivial

def Lacks (i : Identity) (responses : List (Except String Http.Response)) : Prop :=
  ∃ secrets : ObjectList .secret, Grants responses i.secretsQuestion secrets ∧
    ∀ secret ∈ secrets.items, i.isBoundToken secret = false

def settle (i : Identity) : Except ClusterError (Object .serviceAccount) → Script Unit
  | .ok _ => pure ()
  | .error e =>
    if e.isNotFound then
      (Script.createIfAbsent .source "create serviceaccount" i.accountInput).bind
        (fun _ => Script.fail (.identityNotReady i.serviceAccount i.ns))
    else Script.fail (.api "get serviceaccount" e)

theorem ensure_eq (i : Identity) :
    i.ensure = (Script.ask .source "get serviceaccount" i.accountQuestion).bind i.settle := by
  refine congrArg (Script.ask .source "get serviceaccount" i.accountQuestion).bind ?_
  funext answer
  cases answer <;> rfl

theorem exists_proceed_eq_done (i : Identity) (secret : Object .secret) :
    ∃ result, i.proceed (some secret) = .done result := by
  simp only [proceed]
  cases credentialOf? secret with
  | some credential => exact ⟨.ok credential, rfl⟩
  | none => exact ⟨.error (.noCredential i.serviceAccount i.ns), rfl⟩

theorem settle_of_isNotFound (i : Identity) {e : ClusterError} (h : e.isNotFound = true) :
    i.settle (.error e) =
      (Script.createIfAbsent .source "create serviceaccount" i.accountInput).bind
        (fun _ => Script.fail (.identityNotReady i.serviceAccount i.ns)) :=
  if_pos h

theorem settle_of_error (i : Identity) {e : ClusterError} (h : e.isNotFound = false) :
    i.settle (.error e) = Script.fail (.api "get serviceaccount" e) :=
  if_neg (h ▸ Bool.false_ne_true)

end Registration.Identity

namespace Registration.Publication

def secretCreation (p : Publication) (descriptor : Kubeconfig) : Request :=
  .create .secret (p.secretInput descriptor)

def clientConfigCreation (p : Publication) : Request :=
  .create .clientConfig p.clientConfigInput

def requests (p : Publication) (descriptor : Kubeconfig) : List Request :=
  [p.secretCreation descriptor, p.clientConfigCreation]

theorem fits_requests (p : Publication) (descriptor : Kubeconfig) :
    ∀ r ∈ p.requests descriptor, r.Fits := by
  intro r hr
  simp only [requests, List.mem_cons, List.not_mem_nil, or_false] at hr
  rcases hr with rfl | rfl <;> exact trivial

end Registration.Publication

namespace Client.Session

variable {session : Session} {now : Nat} {deadline : Deadline} {question creation : Http.Request}
  {responses : List (Except String Http.Response)}

theorem exchange_of_converse {α : Type} {script : Script α} {result : Except Registration.Error α}
    {p : Http.Playback}
    (h : session.converse now deadline script (Http.Playback.start responses) = (result, p)) :
    session.exchange now deadline script responses = (result, p.requests) := by
  unfold exchange
  rw [show (session.converse now deadline script) (Http.Playback.start responses) = _ from h]

theorem exchange_ensure (hdeadline : deadline.isOver now = false) (i : Identity)
    (hquestion : session.message i.accountQuestion = .ok question)
    (hcreation : session.message i.accountCreation = .ok creation)
    (responses : List (Except String Http.Response)) :
    let ended := session.exchange now deadline i.ensure responses
    (Misses responses → ended.2 = [question, creation]) ∧ (¬ Misses responses → ended.2 = [question]) ∧
      (ended.1 = .ok () ↔ ∃ account, Grants responses i.accountQuestion account) := by
  have hensure : session.converse now deadline i.ensure (Http.Playback.start responses) =
      session.converse now deadline
        (i.settle ((heard i.accountQuestion responses).mapError .client))
        ⟨responses.tail, [question]⟩ := by
    rw [Identity.ensure_eq]
    exact converse_ask hdeadline hquestion i.settle (Http.Playback.start responses)
  simp only [← heard_isNotFound_iff (r := i.accountQuestion), ← heard_eq_ok_iff]
  cases hheard : heard i.accountQuestion responses with
  | ok account =>
    rw [hheard] at hensure
    rw [exchange_of_converse (hensure.trans (converse_done (.ok ()) _))]
    refine ⟨?_, fun _ => rfl, iff_of_true rfl ⟨account, rfl⟩⟩
    rintro ⟨e, he, -⟩
    cases he
  | error e =>
    rw [hheard] at hensure
    cases he : e.isNotFound with
    | true =>
      obtain ⟨e', he'⟩ := converse_createIfAbsent_fail hdeadline hcreation
        .source "create serviceaccount" (.identityNotReady i.serviceAccount i.ns) ⟨responses.tail, [question]⟩
      rw [← i.settle_of_isNotFound (e := .client e) he] at he'
      rw [exchange_of_converse (hensure.trans he')]
      refine ⟨fun _ => rfl, fun hnot => absurd ⟨e, rfl, he⟩ hnot, iff_of_false nofun nofun⟩
    | false =>
      have hended : session.converse now deadline (i.settle (.error (.client e)))
          ⟨responses.tail, [question]⟩ =
          (.error (.api "get serviceaccount" (.client e)), ⟨responses.tail, [question]⟩) := by
        rw [i.settle_of_error (e := .client e) he]
        rfl
      rw [exchange_of_converse (hensure.trans hended)]
      refine ⟨?_, fun _ => rfl, iff_of_false nofun nofun⟩
      rintro ⟨e', he', htells⟩
      cases he'
      rw [he] at htells
      cases htells

theorem exchange_locate (hdeadline : deadline.isOver now = false) (i : Identity)
    (hquestion : session.message i.secretsQuestion = .ok question)
    (hcreation : session.message i.placeholderCreation = .ok creation)
    (responses : List (Except String Http.Response)) :
    let ended := session.exchange now deadline i.locate responses
    (i.Lacks responses → ended.2 = [question, creation]) ∧
      (¬ i.Lacks responses → ended.2 = [question]) := by
  have hlocate : session.converse now deadline i.locate (Http.Playback.start responses) =
      session.converse now deadline
        ((Script.require "list secrets"
          ((heard i.secretsQuestion responses).mapError ClusterError.client)).bind
            (fun secrets : ObjectList .secret => i.proceed (secrets.items.find? i.isBoundToken)))
        ⟨responses.tail, [question]⟩ := by
    rw [Identity.locate_eq]
    exact converse_ask hdeadline hquestion _ (Http.Playback.start responses)
  have hlacks : i.Lacks responses ↔ ∃ secrets : ObjectList .secret,
      heard i.secretsQuestion responses = .ok secrets ∧
        ∀ secret ∈ secrets.items, i.isBoundToken secret = false :=
    exists_congr fun _ => and_congr heard_eq_ok_iff.symm Iff.rfl
  rw [hlacks]
  cases hheard : heard i.secretsQuestion responses with
  | error e =>
    rw [hheard] at hlocate
    rw [exchange_of_converse (hlocate.trans (converse_done (.error (.api "list secrets" (.client e))) _))]
    refine ⟨?_, fun _ => rfl⟩
    rintro ⟨secrets, hsecrets, -⟩
    cases hsecrets
  | ok answer =>
    let secrets : ObjectList .secret := answer
    have hproceed : session.converse now deadline i.locate (Http.Playback.start responses) =
        session.converse now deadline (i.proceed (secrets.items.find? i.isBoundToken))
          ⟨responses.tail, [question]⟩ := by
      rw [hheard] at hlocate
      exact hlocate
    -- The first secret that is bound to the account is taken, whatever it holds.
    cases hfind : secrets.items.find? i.isBoundToken with
    | none =>
      rw [hfind] at hproceed
      obtain ⟨e', he'⟩ := converse_createIfAbsent_fail hdeadline hcreation
        .source "create secret" (.noCredential i.serviceAccount i.ns) ⟨responses.tail, [question]⟩
      rw [exchange_of_converse (hproceed.trans he')]
      refine ⟨fun _ => rfl, fun hnot => absurd ⟨secrets, rfl, ?_⟩ hnot⟩
      intro secret hsecret
      exact Bool.eq_false_iff.mpr (List.find?_eq_none.mp hfind secret hsecret)
    | some secret =>
      rw [hfind] at hproceed
      obtain ⟨result, hresult⟩ := i.exists_proceed_eq_done secret
      rw [hresult] at hproceed
      rw [exchange_of_converse (hproceed.trans (converse_done result _))]
      refine ⟨?_, fun _ => rfl⟩
      rintro ⟨secrets', hsecrets, hunbound⟩
      cases hsecrets
      have hbound := List.find?_some hfind
      rw [hunbound secret (List.mem_of_find?_eq_some hfind)] at hbound
      cases hbound

theorem exchange_createIfAbsent (hdeadline : deadline.isOver now = false) {k : Kind} {input : ObjectInput k}
    (hcreation : session.message (.create k input) = .ok creation) (side : Side) (operation : String)
    (responses : List (Except String Http.Response)) :
    let ended := session.exchange now deadline (Script.createIfAbsent side operation input) responses
    ended.2 = [creation] ∧
      (ended.1 = .ok () ↔ (∃ o, Grants responses (.create k input) o) ∨ Keeps responses) := by
  obtain ⟨result, hended, hresult⟩ := converse_createIfAbsent hdeadline hcreation side operation
    (Http.Playback.start responses)
  rw [exchange_of_converse hended]
  exact ⟨rfl, hresult⟩

/--
The law of exchanges. Whatever a server responds, the first message of a part of a registration is always the
same, and a second one creates what the first response tells is not there.
-/
theorem exchange_law (session : Session) (i : Identity) (p : Publication) (descriptor : Kubeconfig)
    (now : Nat) (deadline : Deadline) (responses : List (Except String Http.Response))
    (hdeadline : deadline.isOver now = false)
    (hcan : ∀ r ∈ i.requests ++ p.requests descriptor, session.CanSay r) :
    let ensured := session.exchange now deadline i.ensure responses
    let located := session.exchange now deadline i.locate responses
    let secret := session.exchange now deadline (p.publishSecret descriptor) responses
    let config := session.exchange now deadline p.publishClientConfig responses
    ((Misses responses → List.Forall₂ session.Says [i.accountQuestion, i.accountCreation] ensured.2) ∧
      (¬ Misses responses → List.Forall₂ session.Says [i.accountQuestion] ensured.2) ∧
      (ensured.1 = .ok () ↔ ∃ account, Grants responses i.accountQuestion account)) ∧
    ((i.Lacks responses → List.Forall₂ session.Says [i.secretsQuestion, i.placeholderCreation] located.2) ∧
      (¬ i.Lacks responses → List.Forall₂ session.Says [i.secretsQuestion] located.2)) ∧
    (List.Forall₂ session.Says [p.secretCreation descriptor] secret.2 ∧
      (secret.1 = .ok () ↔ (∃ o, Grants responses (p.secretCreation descriptor) o) ∨ Keeps responses)) ∧
    List.Forall₂ session.Says [p.clientConfigCreation] config.2 ∧
      (config.1 = .ok () ↔ (∃ o, Grants responses p.clientConfigCreation o) ∨ Keeps responses) := by
  have hmessage : ∀ r ∈ i.requests ++ p.requests descriptor,
      ∃ message, session.message r = .ok message ∧ session.Says r message := by
    intro r hr
    refine (hcan r hr).exists_message ?_
    rcases List.mem_append.mp hr with hr | hr
    . exact i.fits_requests r hr
    . exact p.fits_requests descriptor r hr
  obtain ⟨get, hget, hsaysGet⟩ := hmessage i.accountQuestion (by simp [Identity.requests])
  obtain ⟨account, haccount, hsaysAccount⟩ := hmessage i.accountCreation (by simp [Identity.requests])
  obtain ⟨list, hlist, hsaysList⟩ := hmessage i.secretsQuestion (by simp [Identity.requests])
  obtain ⟨placeholder, hplaceholder, hsaysPlaceholder⟩ :=
    hmessage i.placeholderCreation (by simp [Identity.requests])
  obtain ⟨secret, hsecret, hsaysSecret⟩ :=
    hmessage (p.secretCreation descriptor) (by simp [Publication.requests])
  obtain ⟨config, hconfig, hsaysConfig⟩ :=
    hmessage p.clientConfigCreation (by simp [Publication.requests])
  obtain ⟨hmissing, hfound, hensured⟩ := exchange_ensure hdeadline i hget haccount responses
  obtain ⟨hlacking, hbound⟩ := exchange_locate hdeadline i hlist hplaceholder responses
  obtain ⟨hsecretSent, hsecretDone⟩ := exchange_createIfAbsent hdeadline hsecret
    .destination "create kubeconfig secret" responses
  obtain ⟨hconfigSent, hconfigDone⟩ := exchange_createIfAbsent hdeadline hconfig
    .destination "create client config" responses
  refine ⟨⟨fun h => ?_, fun h => ?_, hensured⟩, ⟨fun h => ?_, fun h => ?_⟩, ⟨?_, hsecretDone⟩, ?_,
    hconfigDone⟩
  . rw [hmissing h]
    exact .cons hsaysGet (.cons hsaysAccount .nil)
  . rw [hfound h]
    exact .cons hsaysGet .nil
  . rw [hlacking h]
    exact .cons hsaysList (.cons hsaysPlaceholder .nil)
  . rw [hbound h]
    exact .cons hsaysList .nil
  . have hsent : (session.exchange now deadline (p.publishSecret descriptor) responses).2 = [secret] :=
      hsecretSent
    rw [hsent]
    exact .cons hsaysSecret .nil
  . have hsent : (session.exchange now deadline p.publishClientConfig responses).2 = [config] :=
      hconfigSent
    rw [hsent]
    exact .cons hsaysConfig .nil

section Sample

def sampleIdentity : Identity :=
  ⟨"apps", "robot"⟩

def samplePublication : Publication :=
  ⟨"clusters", "remote"⟩

theorem canSay_sampleRequests : ∀ r ∈ sampleIdentity.requests ++ samplePublication.requests default,
    sample.CanSay r := by
  intro r hr
  refine reaches_sample.canSay ?_
  simp only [Identity.requests, Publication.requests, List.cons_append, List.nil_append, List.mem_cons,
    List.not_mem_nil, or_false] at hr
  rcases hr with rfl | rfl | rfl | rfl | rfl | rfl <;> exact ⟨by decide, trivial, by decide⟩

def sampleTaken : Http.Response :=
  Server.Reply.taken.response

theorem misses_sampleMissing : Misses [.ok sampleMissing, .error "connection reset"] :=
  ⟨sampleMissing, _, rfl, by decide, .inr ⟨isPlain_sampleMissing, rfl⟩⟩

theorem keeps_sampleTaken : Keeps [.ok sampleTaken] :=
  ⟨sampleTaken, [], rfl, by decide, .inr ⟨isPlain_of_isOk (by decide), rfl⟩⟩

theorem exchange_law_of_sample :
    List.Forall₂ sample.Says [sampleIdentity.accountQuestion, sampleIdentity.accountCreation]
        (sample.exchange 0 .never sampleIdentity.ensure
          [.ok sampleMissing, .error "connection reset"]).2 ∧
      (sample.exchange 0 .never (samplePublication.publishSecret default) [.ok sampleTaken]).1 =
        .ok () := by
  refine ⟨?_, ?_⟩
  . exact (exchange_law sample sampleIdentity samplePublication default 0 .never _ rfl
      canSay_sampleRequests).1.1 misses_sampleMissing
  . exact (exchange_law sample sampleIdentity samplePublication default 0 .never _ rfl
      canSay_sampleRequests).2.2.1.2.mpr (.inr keeps_sampleTaken)

end Sample

end Client.Session

end ClusterRegistration
