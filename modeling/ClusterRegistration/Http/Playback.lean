import ClusterRegistration.Http.Basic

namespace ClusterRegistration.Http

structure Playback where
  pending : List (Except String Response)
  sent : List Request

namespace Playback

def start (responses : List (Except String Response)) : Playback :=
  ⟨responses, []⟩

def send (r : Request) : StateM Playback (Except String Response) := fun p =>
  match p.pending with
  | [] => (.error "no response", ⟨[], r :: p.sent⟩)
  | response :: rest => (response, ⟨rest, r :: p.sent⟩)

def requests (p : Playback) : List Request :=
  p.sent.reverse

end Playback

end ClusterRegistration.Http
