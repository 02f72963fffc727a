import ClusterRegistration.Proofs.Store.Creation
import ClusterRegistration.Registration.Publication

namespace ClusterRegistration.Registration.Publication

def item (p : Publication) : ItemName :=
  ⟨p.name, p.ns⟩

def secretKey (p : Publication) : Store.Key :=
  Store.Key.of .secret p.item

def clientConfigKey (p : Publication) : Store.Key :=
  Store.Key.of .clientConfig p.item

def applied (p : Publication) (descriptor : Kubeconfig) (s : Store) : Store :=
  (s.ensure (p.secretInput descriptor)).ensure p.clientConfigInput

theorem get_secret_applied {p : Publication} {s : Store} (descriptor : Kubeconfig)
    (h : s.objects.contains (Store.Key.of .secret p.item) = false) :
    (p.applied descriptor s).get .secret p.item =
      .ok (Store.created (p.secretInput descriptor) (s.version + 1)) := by
  have hkey : Store.Key.of .secret p.item ≠ Store.inputKey p.clientConfigInput :=
    Store.key_ne (by decide) _ _
  have hfits : Kind.SpecFits .secret (p.secretInput descriptor).spec := trivial
  unfold applied
  rw [Store.get_ensure_of_ne _ _ hkey]
  exact Store.get_ensure_self hfits h

theorem get_clientConfig_applied {p : Publication} {s : Store} (descriptor : Kubeconfig)
    (h : s.objects.contains (Store.Key.of .clientConfig p.item) = false) :
    ∃ version, (p.applied descriptor s).get .clientConfig p.item =
      .ok (Store.created p.clientConfigInput version) := by
  have hkey : Store.Key.of .clientConfig p.item ≠ Store.inputKey (p.secretInput descriptor) :=
    Store.key_ne (by decide) _ _
  have hfits : Kind.SpecFits .clientConfig p.clientConfigInput.spec := trivial
  have hfree : (s.ensure (p.secretInput descriptor)).objects.contains
      (Store.inputKey p.clientConfigInput) = false := by
    exact (Store.contains_ensure_of_ne _ _ hkey).trans h
  exact ⟨_, Store.get_ensure_self hfits hfree⟩

end ClusterRegistration.Registration.Publication
