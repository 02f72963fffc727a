import ClusterRegistration.Proofs.Client.Locator
import ClusterRegistration.Proofs.Registration.Endpoint
import ClusterRegistration.Proofs.Uri.Tail

namespace ClusterRegistration

namespace Locator

variable {server : String} {base : Uri} {l : Locator}

theorem path_below_ne (path : String) (l : Locator) : Address.dropTrailingSlashes path ++ l.path ≠ path := by
  intro h
  obtain ⟨cs, hcs⟩ := exists_pathOf_eq l
  have hdrop := congrArg (fun s : String => Uri.dropSlashes s.toList) h
  have hbelow := Uri.dropSlashes_append (c := 'a') (by decide) (Uri.dropSlashes path.toList ++ ['/']) cs
  simp only [List.append_assoc, List.cons_append, List.nil_append] at hbelow
  rw [Uri.toList_below, toList_path, hcs, hbelow] at hdrop
  have hlength := congrArg List.length hdrop
  rw [List.length_append, List.length_cons] at hlength
  omega

theorem ne_uriBelow {uri : Uri} (h : uri.path = base.path) : uri ≠ l.uriBelow base := by
  rintro rfl
  exact path_below_ne base.path l h

section Below

variable (hbase : Uri.parse server = .ok base) (hscheme : base.scheme = some "https")
  (hnames : ∀ name ∈ l.names, IsDnsName name)
  (hlength : (Address.dropTrailingSlashes server ++ l.path).utf8ByteSize ≤ Uri.maxLength)

include hbase hscheme hlength

theorem uri_of_fragment (h : '#' ∈ server.toList) : l.uri server = .ok base :=
  (l.uri_eq server).trans (Uri.parse_below_fragment hbase hscheme hlength h)

include hnames

theorem uri_of_query (h : '?' ∈ server.toList) (hfragment : '#' ∉ server.toList) :
    ∃ query, base.query = some query ∧
      l.uri server = .ok { base with query := some (Address.dropTrailingSlashes query ++ l.path) } := by
  rw [uri_eq]
  exact Uri.parse_below_query hbase hscheme hlength (fun c hc => (isChar_path hnames c hc).2) h hfragment

end Below

end Locator

namespace Registration

/--
The law of addressing. Below a server that is accepted, every address is found. It leads to what is asked for
exactly if the server has neither a query nor a fragment. Otherwise it has the path of the server alone: what
is asked for is in the query, or is not read.
-/
theorem addressing_law {context server : String} (h : validateEndpoint context server = .ok ()) :
    ∃ base, Uri.parse server = .ok base ∧ base.scheme = some "https" ∧
      ∀ l : Locator, (∀ name ∈ l.names, IsDnsName name) →
        (Address.dropTrailingSlashes server ++ l.path).utf8ByteSize ≤ Uri.maxLength →
          ∃ uri, l.uri server = .ok uri ∧
            (uri = l.uriBelow base ↔ ∀ c ∈ server.toList, c ≠ '?' ∧ c ≠ '#') ∧
            ('#' ∈ server.toList → uri = base) ∧
            ('?' ∈ server.toList → '#' ∉ server.toList → ∃ query, base.query = some query ∧
              uri = { base with query := some (Address.dropTrailingSlashes query ++ l.path) }) := by
  obtain ⟨base, hbase, hscheme⟩ := exists_parse_of_endpointFault? (validateEndpoint_eq_ok_iff.mp h)
  refine ⟨base, hbase, hscheme, fun l hnames hlength => ?_⟩
  by_cases hfragment : '#' ∈ server.toList
  . refine ⟨base, Locator.uri_of_fragment hbase hscheme hlength hfragment, ?_, fun _ => rfl, ?_⟩
    . exact iff_of_false (Locator.ne_uriBelow rfl) fun hplain => (hplain '#' hfragment).2 rfl
    . exact fun _ hnone => absurd hfragment hnone
  by_cases hquestion : '?' ∈ server.toList
  . obtain ⟨query, hquery, huri⟩ :=
      Locator.uri_of_query hbase hscheme hnames hlength hquestion hfragment
    refine ⟨_, huri, ?_, fun hsome => absurd hsome hfragment, fun _ _ => ⟨query, hquery, rfl⟩⟩
    exact iff_of_false (Locator.ne_uriBelow rfl) fun hplain => (hplain '?' hquestion).1 rfl
  . have hplain : ∀ c ∈ server.toList, c ≠ '?' ∧ c ≠ '#' :=
      fun c hc => ⟨ne_of_mem_of_not_mem hc hquestion, ne_of_mem_of_not_mem hc hfragment⟩
    exact ⟨_, Locator.uri_of_plain hbase hscheme hnames hlength hplain, iff_of_true rfl hplain,
      fun hsome => absurd hsome hfragment, fun hsome => absurd hsome hquestion⟩

section Sample

def sampleSecret : Locator :=
  .item .secret ⟨"robot", "apps"⟩

theorem addressing_law_of_sample :
    validateEndpoint "kind-source" "https://admin@[fd00::1]:6443/clusters/a/" = .ok () ∧
      (∀ name ∈ sampleSecret.names, IsDnsName name) ∧
      (Address.dropTrailingSlashes "https://admin@[fd00::1]:6443/clusters/a/" ++
        sampleSecret.path).utf8ByteSize ≤ Uri.maxLength ∧
      sampleSecret.uri "https://admin@[fd00::1]:6443/clusters/a/" =
        .ok ⟨some "https", "admin@[fd00::1]:6443", "/clusters/a/api/v1/namespaces/apps/secrets/robot", none⟩ := by
  have hvalid : validateEndpoint "kind-source" "https://admin@[fd00::1]:6443/clusters/a/" = .ok () :=
    validateEndpoint_eq_ok_iff.mpr (by decide)
  have hlength : (Address.dropTrailingSlashes "https://admin@[fd00::1]:6443/clusters/a/" ++
      sampleSecret.path).utf8ByteSize ≤ Uri.maxLength := by decide
  obtain ⟨base, hbase, -, haddress⟩ := addressing_law hvalid
  cases hbase
  obtain ⟨uri, huri, hplain, -⟩ := haddress sampleSecret (by decide) hlength
  refine ⟨hvalid, by decide, hlength, huri.trans ?_⟩
  rw [hplain.mpr (Uri.plain_of_all (by decide))]
  rfl

theorem path_lost_in_query :
    ¬ ∀ context server : String, validateEndpoint context server = .ok () →
      ∃ base, Uri.parse server = .ok base ∧ ∀ l : Locator, (∀ name ∈ l.names, IsDnsName name) →
        (Address.dropTrailingSlashes server ++ l.path).utf8ByteSize ≤ Uri.maxLength →
          l.uri server = .ok (l.uriBelow base) := by
  intro hbelow
  obtain ⟨base, hbase, haddress⟩ := hbelow "kind-source" "https://10.0.0.1:6443?x=1"
    (validateEndpoint_eq_ok_iff.mpr (by decide))
  cases hbase
  exact absurd (haddress sampleSecret (by decide) (by decide)) (by decide)

end Sample

end Registration

end ClusterRegistration
