import ClusterRegistration.Registration.Endpoint
import ClusterRegistration.Registration.Identity
import ClusterRegistration.Registration.Publication

/-!
This module contains one attempt at a registration. It keeps nothing between attempts: all progress is
in the two clusters, and another attempt goes on from there.
-/

namespace ClusterRegistration.Registration

structure Config where
  source : Target
  destination : Target
  identity : Identity
  publication : Publication
deriving DecidableEq, Repr, Inhabited

namespace Config

def target (c : Config) : Side → Target
  | .source => c.source
  | .destination => c.destination

def isSelfRegistration (c : Config) : Bool :=
  c.source.same c.destination

def attempt (c : Config) (sourceKubeconfig : Except FileError Bytes) : Script Unit :=
  if c.isSelfRegistration then
    Script.fail (.selfRegistration c.source.kubeconfig.text c.source.context)
  else do
    let host ← Script.ofExcept (resolveHost c.source sourceKubeconfig)
    Script.connect .source c.source
    Script.connect .destination c.destination
    c.identity.ensure
    let credential ← c.identity.locate
    let descriptor ← Script.ofExcept (translate credential host c.publication.name)
    c.publication.publishSecret descriptor
    c.publication.publishClientConfig

end Config

end ClusterRegistration.Registration
