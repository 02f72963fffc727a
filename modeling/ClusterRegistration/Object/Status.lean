import ClusterRegistration.Json.ValueSource

namespace ClusterRegistration

open Record Json

variable {ν : Type} {m : Type → Type} [Monad m] [ValueSource ν m]

structure StatusDetails where
  name : String
  group : Option String
  kind : String
  uid : String
deriving DecidableEq, Repr, Inhabited

namespace StatusDetails

def read : ν → m StatusDetails :=
  Source.record "StatusDetails" [
    .defaulted "name" Source.text (fun s r => { r with name := s }),
    .defaulted "group" (Source.optional Source.text) (fun s r => { r with group := s }),
    .defaulted "kind" Source.text (fun s r => { r with kind := s }),
    .defaulted "uid" Source.text (fun s r => { r with uid := s })] default

def toJson (r : StatusDetails) : Json :=
  .object [
    ("name", .text r.name),
    ("group", Json.ofOption .text r.group),
    ("kind", .text r.kind),
    ("uid", .text r.uid)]

end StatusDetails

inductive Verdict where
  | success
  | failure
deriving DecidableEq, Repr, Inhabited

def Verdict.text : Verdict → String
  | .success => "Success"
  | .failure => "Failure"

def Verdict.ofText (s : String) : Verdict :=
  if s = Verdict.success.text then .success else .failure

structure ApiStatus where
  apiVersion : String
  code : Option Int
  details : Option StatusDetails
  kind : String
  message : Option String
  reason : Option String
  verdict : Verdict
deriving DecidableEq, Repr, Inhabited

namespace ApiStatus

def read : ν → m ApiStatus :=
  Source.record "MetaStatus" [
    .defaulted "apiVersion" Source.text (fun s r => { r with apiVersion := s }),
    .optional "code" (ValueSource.integer 0 65535 "u16") (fun i r => { r with code := i }),
    .optional "details" StatusDetails.read (fun d r => { r with details := d }),
    .defaulted "kind" Source.text (fun s r => { r with kind := s }),
    .optional "message" Source.text (fun s r => { r with message := s }),
    .optional "reason" Source.text (fun s r => { r with reason := s }),
    .required "status"
      (ValueSource.choice "StatusEnum" [Verdict.success.text, Verdict.failure.text])
      (fun s r => { r with verdict := Verdict.ofText s })] default

def toJson (r : ApiStatus) : Json :=
  .object [
    ("apiVersion", .text r.apiVersion),
    ("code", Json.ofOption Json.integer r.code),
    ("details", Json.ofOption StatusDetails.toJson r.details),
    ("kind", .text r.kind),
    ("message", Json.ofOption .text r.message),
    ("reason", Json.ofOption .text r.reason),
    ("status", .text r.verdict.text)]

def reasonNotFound : String := "NotFound"

def reasonAlreadyExists : String := "AlreadyExists"

def isNotFound (r : ApiStatus) : Bool :=
  r.code = some 404 || r.reason = some reasonNotFound

/--
The code 409 also answers conflicting updates, so only the reason counts.
-/
def isAlreadyExists (r : ApiStatus) : Bool :=
  r.reason = some reasonAlreadyExists

def text (r : ApiStatus) : String :=
  r.reason.getD "Unknown" ++ " (" ++ toString (r.code.getD 0) ++ "): " ++ r.message.getD ""

end ApiStatus

end ClusterRegistration
