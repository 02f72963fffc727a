import ClusterRegistration.Proofs.Registration.Disclosure
import ClusterRegistration.Proofs.Kubeconfig.Text
import ClusterRegistration.Proofs.Scenario.Convergence

/-!
This module contains what reaches the destination of a registration: nothing of the source but what
counts for the registration.
-/

namespace ClusterRegistration.Scenario

open Registration

structure Exposes (c : Config) (s : Scenario) (d : Disclosure) (source destination : String) : Prop where
  hooks : s.hooks = []
  faults : s.faults = []
  ofSource : s.storeOf? c.source = some source
  ofDestination : s.storeOf? c.destination = some destination
  apart : source ≠ destination
  disclosed : c.Discloses (s.files.read c.source.kubeconfig) (s.store source) d

theorem quiet_of_exposes {c : Config} {s : Scenario} {d : Disclosure} {source destination : String}
    (h : Exposes c s d source destination) : s.Quiet s.files := by
  refine ⟨h.hooks, ?_, rfl⟩
  rw [h.faults]
  nofun

/--
Whatever else differs between two sources, if they show the same then what is published is the same,
and so is the result but for the name of a secret.
-/
theorem register_of_disclosed {c : Config} {s s' : Scenario} {d : Disclosure}
    {source destination source' destination' : String} (h : Exposes c s d source destination)
    (h' : Exposes c s' d source' destination') (hsame : s.store destination = s'.store destination') :
    (register .stores c Deadline.never s).2.store destination =
        (register .stores c Deadline.never s').2.store destination' ∧
      (register .stores c Deadline.never s).1.mapError Error.anonymous =
        (register .stores c Deadline.never s').1.mapError Error.anonymous := by
  obtain ⟨-, hresult, hclusters⟩ := register_of_quiet (quiet_of_exposes h) c
  obtain ⟨-, hresult', hclusters'⟩ := register_of_quiet (quiet_of_exposes h') c
  obtain ⟨hwrites, hresults⟩ : Prospect.Resembles
      (c.prospect (s.files.read c.source.kubeconfig) (s.clustersAt c.target))
      (c.prospect (s'.files.read c.source.kubeconfig) (s'.clustersAt c.target)) :=
    Config.prospect_resembles h.disclosed h'.disclosed h.ofSource h.ofDestination h'.ofSource
      h'.ofDestination
  constructor
  . have hstore : (register .stores c Deadline.never s).2.store destination = _ :=
      congrArg (fun w => w.store destination) hclusters
    have hstore' : (register .stores c Deadline.never s').2.store destination' = _ :=
      congrArg (fun w => w.store destination') hclusters'
    rw [hstore, hstore', hwrites]
    exact Clusters.store_applyAll_of_same (s.clustersAt c.target) (s'.clustersAt c.target) h.ofSource
      h.ofDestination h.apart h'.ofSource h'.ofDestination h'.apart hsame _
  . rw [hresult, hresult']
    exact hresults

section Sample

def sampleWith (k : Kubeconfig) (secret : Object .secret) : Scenario :=
  let files := FileTree.empty.insert sample.source.kubeconfig (.file (Text.Utf8.encode k.toYaml))
  { sampleStart with files := files }.putStore "a" (sample.identity.issued Store.empty secret)

def sampleUser : Kubeconfig :=
  { clusters := [⟨"s", { server := "https://source" }⟩]
    contexts := [⟨"source", { cluster := "s", user := "s" }⟩]
    users := [⟨"s", { token := some "s" }⟩] }

def sampleAdministrator : Kubeconfig :=
  { clusters := [⟨"other", { server := "https://other" }⟩, ⟨"s", { server := "https://source" }⟩]
    contexts := [⟨"source", { cluster := "s", user := "admin" }⟩]
    users := [⟨"admin", { username := some "admin", password := some "secret" }⟩] }

def sampleAnnexed : Object .secret :=
  let secret := sample.identity.filled "t" [1, 2]
  let header : SecretHeader := secret.header
  { secret with header := { header with data := header.data.insert "namespace" "x" } }

def sampleDisclosure : Disclosure :=
  ⟨"https://source", true,
    some (some (base64Text (Text.Utf8.encode "t")), some (base64Text [1, 2]))⟩

theorem issues_sampleAnnexed : sample.identity.Issues sampleAnnexed "t" [1, 2] := by
  have h : sample.identity.Issues (sample.identity.filled "t" [1, 2]) "t" [1, 2] :=
    sample.identity.issues_filled rfl (List.cons_ne_nil _ _)
  have htoken : Identity.tokenKey ≠ "namespace" := by decide
  have hca : Identity.caKey ≠ "namespace" := by decide
  refine ⟨h.fits, h.item, h.bound, ?_, ?_, h.notBlank, h.notEmpty⟩
  . exact (OrderedMap.get?_insert_of_ne _ htoken _).trans h.tokenData
  . exact (OrderedMap.get?_insert_of_ne _ hca _).trans h.caData

theorem store_sampleWith (k : Kubeconfig) (secret : Object .secret) :
    (sampleWith k secret).store "a" = sample.identity.issued Store.empty secret ∧
      (sampleWith k secret).store "b" = Store.empty := by
  unfold sampleWith
  rw [store_putStore_self, store_putStore_of_ne _ (by decide)]
  exact ⟨rfl, rfl⟩

theorem exposes_sampleWith {k : Kubeconfig} {secret : Object .secret} {resolved : Kubeconfig.Resolved}
    (hresolved : k.resolve sample.source.context = .ok resolved)
    (hserver : resolved.cluster.server = "https://source")
    (hissues : sample.identity.Issues secret "t" [1, 2]) :
    Exposes sample (sampleWith k secret) sampleDisclosure "a" "b" := by
  have hread : (sampleWith k secret).files.read sample.source.kubeconfig =
      .ok (Text.Utf8.encode k.toYaml) := rfl
  have hfile : Kubeconfig.ofFile sample.source.kubeconfig (.ok (Text.Utf8.encode k.toYaml)) =
      .ok { k with path := sample.source.kubeconfig } := by
    simp only [Kubeconfig.ofFile, Kubeconfig.ofYaml_toYaml]
    rfl
  have hends : (sampleWith k secret).storeOf? sample.source = some "a" ∧
      (sampleWith k secret).storeOf? sample.destination = some "b" := by
    have hends := storeOf?_sample
    unfold storeOf? at hends ⊢
    exact hends
  obtain ⟨hsource, hdestination⟩ := hends
  obtain ⟨hissued, -⟩ := store_sampleWith k secret
  obtain ⟨haccount, -⟩ := Identity.issued_of_issues Store.Reachable.empty
    sample.identity.unbound_empty hissues
  have hbound := Identity.bound_issued Store.Reachable.empty sample.identity.unbound_empty hissues
  rw [← hissued] at haccount hbound
  refine ⟨rfl, rfl, hsource, hdestination, by decide, ?_, haccount, _, hbound, ?_⟩
  . refine ⟨resolved, ?_, hserver⟩
    rw [hread, hfile]
    exact hresolved
  . exact congrArg some (Prod.ext hissues.tokenData hissues.caData)

theorem register_of_disclosed_of_sample :
    let s := sampleWith sampleUser (sample.identity.filled "t" [1, 2])
    let s' := sampleWith sampleAdministrator sampleAnnexed
    Exposes sample s sampleDisclosure "a" "b" ∧ Exposes sample s' sampleDisclosure "a" "b" ∧
      s.store "b" = s'.store "b" ∧
      (register .stores sample Deadline.never s).2.store "b" =
        (register .stores sample Deadline.never s').2.store "b" ∧
      (register .stores sample Deadline.never s).1.mapError Error.anonymous =
        (register .stores sample Deadline.never s').1.mapError Error.anonymous := by
  have h := exposes_sampleWith (k := sampleUser) rfl rfl
    (sample.identity.issues_filled rfl (List.cons_ne_nil _ _))
  have h' := exposes_sampleWith (k := sampleAdministrator) rfl rfl issues_sampleAnnexed
  obtain ⟨-, hempty⟩ := store_sampleWith sampleUser (sample.identity.filled "t" [1, 2])
  obtain ⟨-, hempty'⟩ := store_sampleWith sampleAdministrator sampleAnnexed
  have hsame := hempty.trans hempty'.symm
  exact ⟨h, h', hsame, register_of_disclosed h h' hsame⟩

end Sample

end ClusterRegistration.Scenario
