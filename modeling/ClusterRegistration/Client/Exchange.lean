import ClusterRegistration.Client.Configuration
import ClusterRegistration.Client.Request
import ClusterRegistration.Http.Basic

namespace ClusterRegistration.Client

structure Session where
  host : String
  token : Option String
deriving DecidableEq, Repr, Inhabited

def Configuration.session (c : Configuration) : Session :=
  ⟨c.host, c.token⟩

namespace Session

def mediaType : String := "application/json"

def commonHeaders (s : Session) : List Http.Header :=
  match s.token with
  | some token => [⟨"accept", mediaType⟩, ⟨"authorization", "Bearer " ++ token⟩]
  | none => [⟨"accept", mediaType⟩]

def method : Request → Http.Method
  | .get _ _ => .get
  | .list _ _ => .get
  | .create _ _ => .post

def address (s : Session) : Request → Except Uri.Error Uri
  | .get k item => Address.item k s.host item.name item.ns
  | .list k scope => Address.items k s.host scope
  | .create k input => Address.items k s.host (.inNamespace input.metadata.ns)

def body : Request → Bytes
  | .get _ _ => []
  | .list _ _ => []
  | .create _ input => Text.Utf8.encode input.toJson.render

def headers (s : Session) (r : Request) : List Http.Header :=
  match method r with
  | .get => s.commonHeaders
  | .post => s.commonHeaders ++ [⟨"content-type", mediaType⟩]

def message (s : Session) (r : Request) : Except Error Http.Request :=
  match s.address r with
  | .error e => .error (.invalidUri e)
  | .ok uri =>
    if s.token.all (fun token => Http.isHeaderValue ("Bearer " ++ token)) then
      .ok ⟨method r, uri, s.headers r, body r⟩
    else .error .invalidHeader

end Session

/--
The reason of a failure that the server does not explain. Only creates are sent, so that a conflict
means that the object exists.
-/
def reasonOf (status : Nat) : Option String :=
  match status with
  | 404 => some ApiStatus.reasonNotFound
  | 409 => some ApiStatus.reasonAlreadyExists
  | status =>
    (Http.reasonPhrase? status).map (fun s => String.ofList (s.toList.filter (· != ' ')))

def plainStatus (r : Http.Response) : ApiStatus where
  apiVersion := "v1"
  code := some r.status
  details := none
  kind := "Status"
  message := some (Text.Utf8.decodeLossy r.body)
  reason := reasonOf r.status
  verdict := .failure

def failureOf (r : Http.Response) : ApiStatus :=
  match Json.Reader.run (ApiStatus.read ()) r.body with
  | .ok s => s
  | .error _ => plainStatus r

def decodeAnswer : (r : Request) → Bytes → Except Json.Error r.Answer
  | .get k _ => Json.Reader.run (Object.read k ())
  | .list k _ => Json.Reader.run (ObjectList.read k ())
  | .create k _ => Json.Reader.run (Object.read k ())

def understand (r : Request) (response : Http.Response) : Except Error r.Answer :=
  if response.isSuccess then
    match decodeAnswer r response.body with
    | .ok a => .ok a
    | .error e => .error (.json e)
  else .error (.status (failureOf response))

def Session.ask {m : Type → Type} [Monad m] (s : Session)
    (send : Http.Request → m (Except String Http.Response)) (r : Request) :
    m (Except Error r.Answer) :=
  match s.message r with
  | .error e => pure (.error e)
  | .ok message => do
    match ← send message with
    | .error reason => pure (.error (.io reason))
    | .ok response => pure (understand r response)

end ClusterRegistration.Client
