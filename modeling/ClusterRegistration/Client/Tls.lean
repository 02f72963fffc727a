import ClusterRegistration.Client.Configuration
import ClusterRegistration.Text.Pem

namespace ClusterRegistration.Client.Tls

section Material

variable {m : Type → Type} [Monad m] (read : Path → m (Except FileError Bytes))

def blocksOf (invalid : String) (content : Except FileError Bytes) :
    Except Error (List Text.Pem.Block) :=
  match content with
  | .error .isADirectory => .error (.tls invalid)
  | .error e => .error (.tls e.message)
  | .ok bytes =>
    match Text.Pem.blocks bytes with
    | some bs => .ok bs
    | none => .error (.tls invalid)

def checkCertificates (content : Except FileError Bytes) : Except Error Unit :=
  (blocksOf "invalid cert" content).map (fun _ => ())

def checkKey (content : Except FileError Bytes) : Except Error Unit := do
  let bs ← blocksOf "invalid key" content
  if (Text.Pem.labelled "RSA PRIVATE KEY" bs).isEmpty then
    throw (.tls "no keys found")

def check (c : Configuration) : m (Except Error Unit) := do
  let ca ← match c.ca with
    | .path p => read p
    | .data bytes => pure (.ok bytes)
  match checkCertificates ca, c.certificate with
  | .error e, _ => pure (.error e)
  | .ok (), none => pure (.ok ())
  | .ok (), some (.data crt key) =>
    pure (checkCertificates (.ok crt) >>= fun _ => checkKey (.ok key))
  | .ok (), some (.paths crt key) => do
    let crt ← read crt
    let key ← read key
    pure (checkCertificates crt >>= fun _ => checkKey key)

end Material

end ClusterRegistration.Client.Tls
