import ClusterRegistration.Proofs.Scenario.Convergence
import ClusterRegistration.Proofs.Scenario.Effect

namespace ClusterRegistration.Scenario

open Registration

structure Lasting (c : Config) (s : Scenario) : Prop where
  hooks : s.hooks = []
  faults : s.faults = []
  resolved : ∃ host, resolveHost c.source (s.files.read c.source.kubeconfig) = .ok host
  issued : ∃ source credential token ca, s.storeOf? c.source = some source ∧
    c.identity.Issued (s.store source) credential ∧ credential.decodeToken = .ok token ∧
    credential.decodeCa = .ok ca
  published : ∃ destination, s.storeOf? c.destination = some destination ∧
    ∀ key ∈ c.destinationKeys, (s.store destination).objects.contains key = true

theorem isSelfRegistration_of_registered {c : Config} {deadline : Deadline} {s : Scenario}
    (h : (register .stores c deadline s).1 = .ok ()) : c.isSelfRegistration = false := by
  cases hself : c.isSelfRegistration with
  | false => rfl
  | true =>
    have hpremature : c.premature? (s.files.read c.source.kubeconfig) =
        some (.selfRegistration c.source.kubeconfig.text c.source.context) := if_pos hself
    have hregister : register .stores c deadline s =
        (c.attempt (s.files.read c.source.kubeconfig)).run clock deadline (perform c.target) s := rfl
    rw [hregister, Config.attempt_of_premature hpremature] at h
    cases h

theorem contains_accountKey_of_issued {i : Identity} {s : Store} {credential : Credential}
    (h : i.Issued s credential) : s.objects.contains i.accountKey = true := by
  obtain ⟨⟨account, haccount⟩, -⟩ := h
  cases hkey : s.objects.contains i.accountKey with
  | true => rfl
  | false =>
    obtain ⟨e, he, -⟩ := (s.isNotFound_get .serviceAccount i.accountName).mpr hkey
    rw [haccount] at he
    cases he

theorem prospect_of_lasting {c : Config} {s : Scenario} (hself : c.isSelfRegistration = false)
    (h : Lasting c s) :
    ∃ host source destination,
      c.Connected (s.files.read c.source.kubeconfig) (s.clustersAt c.target) host source destination ∧
      (s.store source).objects.contains c.identity.accountKey = true ∧
      (c.prospect (s.files.read c.source.kubeconfig) (s.clustersAt c.target)).result = .ok () ∧
      c.after (s.files.read c.source.kubeconfig) (s.clustersAt c.target) = s.clustersAt c.target := by
  obtain ⟨host, hhost⟩ := h.resolved
  obtain ⟨source, credential, token, ca, hsource, hissued, htoken, hca⟩ := h.issued
  obtain ⟨destination, hdestination, hkeys⟩ := h.published
  have hconnected : c.Connected (s.files.read c.source.kubeconfig) (s.clustersAt c.target) host
      source destination := Config.connected_of_host rfl hself hhost hsource hdestination
  have htranslate : translate credential host c.publication.name =
      .ok (descriptor token ca host c.publication.name) :=
    (translate_eq_ok_iff _ _ _ _).mpr ⟨token, ca, htoken, hca, rfl⟩
  have hprospect : c.prospect (s.files.read c.source.kubeconfig) (s.clustersAt c.target) =
      ⟨.ok (), c.publication.writes (descriptor token ca host c.publication.name)⟩ :=
    (hconnected.ofProspect _ rfl).trans (Config.advanced_of_issued hissued htranslate)
  refine ⟨host, source, destination, hconnected, contains_accountKey_of_issued hissued, ?_, ?_⟩
  . rw [hprospect]
  . unfold Config.after
    rw [hprospect]
    apply Config.applyAll_writes_of_contains _ _ hconnected.ofDestination
    . exact hkeys _ List.mem_cons_self
    . exact hkeys _ (List.mem_cons_of_mem _ List.mem_cons_self)

/--
A cluster that is registered stays so. As long as what is published is there and the source has a
credential, further attempts succeed and change nothing, whatever else becomes of the source.
-/
theorem registerTimes_of_registered {c : Config} {deadline : Deadline} {s s' : Scenario}
    (hok : (register .stores c deadline s).1 = .ok ()) (h : Lasting c s') (n : Nat) :
    (registerTimes c n s').1 = List.replicate n (.ok ()) ∧
      ∀ name, (registerTimes c n s').2.store name = s'.store name := by
  have hquiet : s'.Quiet s'.files := by
    refine ⟨h.hooks, ?_, rfl⟩
    rw [h.faults]
    nofun
  obtain ⟨host, source, destination, hconnected, haccount, hresult, hafter⟩ :=
    prospect_of_lasting (isSelfRegistration_of_registered hok) h
  obtain ⟨-, hresults, hclusters⟩ := registerTimes_of_account hquiet hconnected haccount n
  rw [hresult] at hresults
  rw [hafter, ite_self] at hclusters
  exact ⟨hresults, fun name => congrArg (fun w => w.store name) hclusters⟩

section Sample

variable {token : String} {ca : Bytes}

theorem storeOf?_sampleIssued (token : String) (ca : Bytes) :
    (sampleIssued token ca).storeOf? sample.source = some "a" ∧
      (sampleIssued token ca).storeOf? sample.destination = some "b" := by
  unfold sampleIssued
  rw [storeOf?_putStore, storeOf?_putStore]
  exact storeOf?_sample

theorem store_sampleIssued_source (token : String) (ca : Bytes) :
    (sampleIssued token ca).store "a" =
      sample.identity.issued Store.empty (sample.identity.filled token ca) := by
  apply store_putStore_self

theorem store_sampleIssued_destination (token : String) (ca : Bytes) :
    (sampleIssued token ca).store "b" = Store.empty := by
  unfold sampleIssued
  rw [store_putStore_of_ne _ (by decide)]
  rfl

def sampleCredential (token : String) (ca : Bytes) : Credential :=
  ⟨"registrar-secret", base64Text (Text.Utf8.encode token), base64Text ca⟩

theorem issued_sampleIssued (htoken : Text.allBlank token = false) (hca : ca ≠ []) :
    sample.identity.Issued ((sampleIssued token ca).store "a") (sampleCredential token ca) := by
  rw [store_sampleIssued_source]
  exact Identity.issued_of_issues Store.Reachable.empty sample.identity.unbound_empty
    (sample.identity.issues_filled htoken hca)

theorem prospect_sampleIssued (htoken : Text.allBlank token = false) (hca : ca ≠ []) :
    sample.prospect (sampleStart.files.read sample.source.kubeconfig)
        ((sampleIssued token ca).clustersAt sample.target) =
      ⟨.ok (), sample.publication.writes (descriptor token ca "https://source" "source")⟩ := by
  have hself : sample.isSelfRegistration = false := by decide +kernel
  obtain ⟨hsource, hdestination⟩ := storeOf?_sampleIssued token ca
  rw [Config.prospect_of_connected hself resolveHost_sample hsource hdestination]
  apply Config.advanced_of_issued (issued_sampleIssued htoken hca)
  exact translate_base64Text _ _ _ htoken hca

theorem register_sampleIssued (htoken : Text.allBlank token = false) (hca : ca ≠ []) :
    (register .stores sample Deadline.never (sampleIssued token ca)).1 = .ok () ∧
      (register .stores sample Deadline.never (sampleIssued token ca)).2.store "b" =
        sample.publication.applied (descriptor token ca "https://source" "source") Store.empty := by
  have hquiet : (sampleIssued token ca).Quiet sampleStart.files := ⟨rfl, nofun, rfl⟩
  obtain ⟨-, hresult, hclusters⟩ := register_of_quiet hquiet sample
  rw [prospect_sampleIssued htoken hca] at hresult hclusters
  generalize register .stores sample Deadline.never (sampleIssued token ca) = out
    at hresult hclusters ⊢
  refine ⟨hresult, ?_⟩
  have hstore : out.2.store "b" =
      (((sampleIssued token ca).clustersAt sample.target).applyAll
        (sample.publication.writes (descriptor token ca "https://source" "source"))).store "b" :=
    congrArg (fun w => w.store "b") hclusters
  have hdestination : ((sampleIssued token ca).clustersAt sample.target).storeAt? .destination =
      some "b" := by
    rw [storeAt?_clustersAt]
    exact (storeOf?_sampleIssued token ca).2
  rw [hstore, Publication.store_applyAll_writes hdestination]
  show sample.publication.applied _ ((sampleIssued token ca).store "b") = _
  rw [store_sampleIssued_destination]

theorem lasting_sampleIssued (htoken : Text.allBlank token = false) (hca : ca ≠ []) {store : Store}
    (hstore : ∀ key ∈ sample.destinationKeys, store.objects.contains key = true) :
    Lasting sample ((sampleIssued token ca).putStore "b" store) := by
  obtain ⟨hsource, hdestination⟩ := storeOf?_sampleIssued token ca
  constructor
  case hooks => rfl
  case faults => rfl
  case resolved => exact ⟨_, resolveHost_sample⟩
  case issued =>
    refine ⟨"a", sampleCredential token ca, token, ca, ?_, ?_, ?_⟩
    . rw [storeOf?_putStore, hsource]
    . rw [store_putStore_of_ne _ (by decide)]
      exact issued_sampleIssued htoken hca
    . exact ⟨Credential.decodeToken_of_eq rfl htoken, Credential.decodeCa_of_eq rfl hca⟩
  case published =>
    refine ⟨"b", ?_, ?_⟩
    . rw [storeOf?_putStore, hdestination]
    . rw [store_putStore_self]
      exact hstore

theorem registerTimes_of_registered_of_sample :
    let s := sampleIssued "t" [1, 2]
    let s' := (sampleIssued "u" [3]).putStore "b"
      ((register .stores sample Deadline.never s).2.store "b")
    (register .stores sample Deadline.never s).1 = .ok () ∧ Lasting sample s' ∧
      (registerTimes sample 2 s').1 = [.ok (), .ok ()] ∧
      ∀ name, (registerTimes sample 2 s').2.store name = s'.store name := by
  obtain ⟨hok, hpublished⟩ := @register_sampleIssued "t" [1, 2] rfl (List.cons_ne_nil _ _)
  have hlasting : Lasting sample ((sampleIssued "u" [3]).putStore "b"
      ((register .stores sample Deadline.never (sampleIssued "t" [1, 2])).2.store "b")) := by
    apply lasting_sampleIssued rfl (List.cons_ne_nil _ _)
    rw [hpublished]
    intro key hkey
    exact Config.contains_applied sample _ _ hkey
  exact ⟨hok, hlasting, registerTimes_of_registered hok hlasting 2⟩

end Sample

end ClusterRegistration.Scenario
