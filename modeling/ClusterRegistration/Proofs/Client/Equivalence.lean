import ClusterRegistration.Proofs.Client.Transport
import ClusterRegistration.Proofs.Store.History

/-!
This module contains the proof that a client of a server that holds the objects of a store does what the
store does, whatever calls are made one after the other.
-/

namespace ClusterRegistration

open Client Server

def Client.receive (r : Request) : Except String Http.Response → Except Client.Error r.Answer
  | .error reason => .error (.io reason)
  | .ok response => understand r response

def Client.Session.call {m : Type → Type} [Monad m] (session : Session)
    (send : Http.Request → m (Except String Http.Response)) (c : Call) :
    m (Except ClusterError c.Answer) := do
  let a ← session.ask send c.request
  pure (c.conclude (a.mapError .client))

def Store.call (c : Call) : StateM Store (Except ClusterError c.Answer) :=
  fun s => Operation.perform s (.call c)

namespace Call

structure Result where
  made : Call
  result : Except ClusterError made.Answer

inductive Result.Same : Result → Result → Prop where
  | of {c : Call} {a b : Except ClusterError c.Answer} (h : SameResult a b) : Same ⟨c, a⟩ ⟨c, b⟩

def makeAll {m : Type → Type} [Monad m] (make : (c : Call) → m (Except ClusterError c.Answer)) :
    List Call → m (List Result)
  | [] => pure []
  | c :: cs => do
    let a ← make c
    let results ← makeAll make cs
    pure (⟨c, a⟩ :: results)

end Call

namespace Client.Session

variable {session : Session} {base : Uri} {σ : Type}
  {send : Http.Request → StateM σ (Except String Http.Response)} {view : σ → Store}

theorem ask_of_message {m : Type → Type} [Monad m] [LawfulMonad m] {r : Request} {message : Http.Request}
    (send : Http.Request → m (Except String Http.Response)) (h : session.message r = .ok message) :
    session.ask send r = receive r <$> send message := by
  unfold ask
  rw [h, map_eq_pure_bind]
  refine bind_congr fun a => ?_
  cases a <;> rfl

theorem ask_agrees (h : session.Reaches base) (hserved : session.IsServed base send view) {r : Request}
    (hr : r.IsProper session.host) (w : σ) :
    SameResult (((session.ask send r).run w).1.mapError .client)
        (((view w).answer r).1.mapError .store) ∧
      view ((session.ask send r).run w).2 = ((view w).answer r).2 := by
  have hmessage := message_eq h hr
  obtain ⟨⟨response, hresponse, hsays⟩, hview⟩ :=
    hserved w r _ hr hmessage _ _ (serve_message h hr (view w) hmessage)
  rw [ask_of_message send hmessage, StateT.run_map]
  show SameResult ((receive r ((send _).run w).1).mapError .client) _ ∧ view ((send _).run w).2 = _
  rw [hresponse]
  exact ⟨matches_replyTo hr.fits hsays, hview⟩

theorem call_agrees (h : session.Reaches base) (hserved : session.IsServed base send view) {c : Call}
    (hc : c.request.IsProper session.host) (w : σ) :
    SameResult ((session.call send c).run w).1 ((Store.call c).run (view w)).1 ∧
      view ((session.call send c).run w).2 = ((Store.call c).run (view w)).2 := by
  obtain ⟨hresult, hview⟩ := ask_agrees h hserved hc w
  exact ⟨c.conclude_same hresult, hview⟩

/--
A client of a server and the store that the server holds give the same results, and stay the same, whatever
calls are made one after the other.
-/
theorem calls_agree (h : session.Reaches base) (hserved : session.IsServed base send view)
    (cs : List Call) (hcs : ∀ c ∈ cs, c.request.IsProper session.host) (w : σ) :
    let remote := (Call.makeAll (session.call send) cs).run w
    let direct := (Call.makeAll Store.call cs).run (view w)
    List.Forall₂ Call.Result.Same remote.1 direct.1 ∧ view remote.2 = direct.2 := by
  -- Each call leaves the server with the objects that the store has then, so the next ones agree.
  induction cs generalizing w with
  | nil => exact ⟨.nil, rfl⟩
  | cons c cs ih =>
    obtain ⟨hresult, hview⟩ := call_agrees h hserved (hcs c List.mem_cons_self) w
    have hrest := ih (fun c' hc' => hcs c' (List.mem_cons_of_mem c hc')) ((session.call send c).run w).2
    rw [hview] at hrest
    exact ⟨.cons (.of hresult) hrest.1, hrest.2⟩

section Sample

def sample : Session :=
  ⟨"https://kubernetes.example:6443/clusters/a/", some "t0ken"⟩

def sampleBase : Uri :=
  ⟨some "https", "kubernetes.example:6443", "/clusters/a/", none⟩

theorem reaches_sample : sample.Reaches sampleBase where
  host := by decide
  endpoint := by decide
  plain := Uri.plain_of_all (by decide)
  token := by
    intro token htoken
    cases htoken
    decide

def sampleInput : ObjectInput .secret :=
  ObjectInput.new (.named "token" "apps") () (SecretHeader.typed SecretHeader.opaqueType)

def sampleCalls : List Call :=
  [.existence .secret ⟨"token", "apps"⟩, .ask (.create .secret sampleInput),
    .createIfAbsent .secret sampleInput, .ask (.get .secret ⟨"token", "apps"⟩),
    .ask (.list .secret (.inNamespace "apps")), .existence .node ⟨"node-1.example", ""⟩]

theorem isProper_sampleCalls : ∀ c ∈ sampleCalls, c.request.IsProper sample.host := by
  intro c hc
  simp only [sampleCalls, List.mem_cons, List.not_mem_nil, or_false] at hc
  rcases hc with rfl | rfl | rfl | rfl | rfl | rfl <;> exact ⟨by decide, trivial, by decide⟩

theorem calls_agree_of_sample :
    let remote := (Call.makeAll (sample.call (transport sampleBase)) sampleCalls).run
      ⟨Store.empty, by decide⟩
    let direct := (Call.makeAll Store.call sampleCalls).run Store.empty
    List.Forall₂ Call.Result.Same remote.1 direct.1 ∧ remote.2.val = direct.2 :=
  calls_agree reaches_sample (isServed_transport reaches_sample) sampleCalls isProper_sampleCalls _

end Sample

end Client.Session

end ClusterRegistration
