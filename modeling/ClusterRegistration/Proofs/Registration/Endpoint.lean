import ClusterRegistration.Client.Connector
import ClusterRegistration.Proofs.Client.Blank
import ClusterRegistration.Proofs.Client.Configuration
import ClusterRegistration.Proofs.Client.Message
import ClusterRegistration.Proofs.Kubeconfig.Text

namespace ClusterRegistration

open Registration

namespace Registration

theorem exists_parse_of_endpointFault? {server : String} (h : endpointFault? server = none) :
    ∃ base, Uri.parse server = .ok base ∧ base.scheme = some "https" := by
  cases hparse : Uri.parse server with
  | error e =>
    unfold endpointFault? at h
    rw [hparse] at h
    cases h
  | ok base => exact ⟨base, rfl, Client.Session.scheme_of_endpointFault? hparse h⟩

theorem exists_divided_of_endpointFault? {server : String} (h : endpointFault? server = none) :
    ∃ authority path tail, Uri.Divided server.toList authority path tail := by
  obtain ⟨base, hparse, hscheme⟩ := exists_parse_of_endpointFault? h
  obtain ⟨tail, hdivided, -⟩ := Uri.divided_of_parseFull (Uri.parseFull_of_parse hparse hscheme) hscheme
  exact ⟨_, _, _, hdivided⟩

theorem validateEndpoint_eq_ok_iff {context server : String} :
    validateEndpoint context server = .ok () ↔ endpointFault? server = none := by
  unfold validateEndpoint
  cases endpointFault? server with
  | none => exact iff_of_true rfl rfl
  | some fault => exact iff_of_false nofun nofun

theorem resolveHost_eq_ok_iff {t : Target} {content : Except FileError Bytes} {host : String} :
    resolveHost t content = .ok host ↔
      ∃ config resolved, Kubeconfig.ofFile t.kubeconfig content = .ok config ∧
        config.resolve t.context = .ok resolved ∧ endpointFault? host = none ∧
          host = Text.trim resolved.cluster.server := by
  unfold resolveHost
  cases hsource : Kubeconfig.ofFile t.kubeconfig content >>= (·.resolve t.context) with
  | error e =>
    refine iff_of_false nofun ?_
    rintro ⟨config, resolved, hconfig, hresolved, -⟩
    rw [hconfig] at hsource
    exact absurd (hresolved.symm.trans hsource) nofun
  | ok resolved =>
    obtain ⟨config, hconfig, hresolved⟩ := exists_of_bind_eq_ok hsource
    dsimp only
    constructor
    . intro h
      obtain ⟨_, hvalid, h⟩ := exists_of_bind_eq_ok h
      cases h
      exact ⟨config, resolved, hconfig, hresolved, validateEndpoint_eq_ok_iff.mp hvalid, rfl⟩
    . rintro ⟨config', resolved', hconfig', hresolved', hfault, rfl⟩
      rw [hconfig] at hconfig'
      cases hconfig'
      rw [hresolved] at hresolved'
      cases hresolved'
      rw [validateEndpoint_eq_ok_iff.mpr hfault]
      rfl

theorem ne_fragment_of_isBlank {c : Char} (h : Text.isBlank c = true) : (c != '#') = true := by
  rw [bne_iff_ne]
  rintro rfl
  cases h

theorem ne_slash_of_isBlank {c : Char} (h : Text.isBlank c = true) : c ≠ '/' := by
  rintro rfl
  cases h

theorem mem_takeWhile_of_isBlank {cs : List Char} {c : Char} (hplain : ∀ d ∈ cs, (d != '#') = true)
    (hc : Text.isBlank c = true) (rest : List Char) : c ∈ (cs ++ c :: rest).takeWhile (· != '#') := by
  rw [List.takeWhile_append_of_pos hplain,
    List.takeWhile_cons_of_pos (p := (· != '#')) (ne_fragment_of_isBlank hc)]
  exact List.mem_append_right _ List.mem_cons_self

inductive Spaced : List Char → Prop where
  | leading {c : Char} (hc : Text.isBlank c = true) (cs : List Char) : Spaced (c :: cs)
  | unread {cs authority path tail : List Char} (h : Uri.Divided cs authority path tail) : Spaced cs
  | trailing {cs : List Char} {c : Char} (hscheme : (cs.take 8).map Char.toLower = "https://".toList)
    (hplain : ∀ d ∈ cs, (d != '#') = true) (hc : Text.isBlank c = true) : Spaced (cs ++ [c])

theorem spaced_of_trim {server : String} (h : endpointFault? (Text.trim server) = none) :
    Spaced server.toList := by
  obtain ⟨authority, path, tail, hdivided⟩ := exists_divided_of_endpointFault? h
  obtain ⟨front, back, hserver, hfront, hback⟩ := Text.exists_append_trim server
  rw [hserver]
  cases front with
  | cons c front => exact .leading (hfront c List.mem_cons_self) _
  | nil =>
    rw [List.nil_append]
    by_cases hfragment : '#' ∈ (Text.trim server).toList
    . exact .unread (hdivided.append hfragment back)
    rcases List.eq_nil_or_concat' back with rfl | ⟨back', c, rfl⟩
    . rw [List.append_nil]
      exact .unread hdivided
    . rw [← List.append_assoc]
      refine .trailing ?_ (fun d hd => ?_) (hback c (List.mem_append_right _ List.mem_cons_self))
      . rw [List.take_append_of_le_length]
        . exact hdivided.scheme
        . rw [← hdivided.length_take]
          exact List.length_take_le' 8 _
      . rcases List.mem_append.mp hd with hd | hd
        . exact bne_iff_ne.mpr (fun hne => hfragment (hne ▸ hd))
        . exact ne_fragment_of_isBlank (hback d (List.mem_append_left _ hd))

section Below

variable {server suffix : String} (h : Spaced server.toList)

include h

theorem Spaced.exists_divided (hblank : ∀ c ∈ server.toList.takeWhile (· != '#'), Text.isBlank c = false) :
    ∃ authority path tail, Uri.Divided server.toList authority path tail := by
  generalize server.toList = cs at h hblank
  cases h with
  | leading hc cs =>
    rw [hblank _ (mem_takeWhile_of_isBlank (List.forall_mem_nil _) hc cs)] at hc
    cases hc
  | unread hdivided => exact ⟨_, _, _, hdivided⟩
  | trailing hscheme hplain hc =>
    rw [hblank _ (mem_takeWhile_of_isBlank hplain hc [])] at hc
    cases hc

theorem Spaced.not_isBlank {uri : Uri} (hslash : suffix.toList.head? = some '/')
    (hparse : Uri.parse (Address.dropTrailingSlashes server ++ suffix) = .ok uri) :
    ∀ c ∈ server.toList.takeWhile (· != '#'), Text.isBlank c = false := by
  have htext := Uri.toList_below server suffix
  generalize server.toList = cs at h htext
  cases h with
  | @leading c hc cs =>
    have hdrop : Uri.dropSlashes (c :: cs) = c :: Uri.dropSlashes cs :=
      Uri.dropSlashes_append (ne_slash_of_isBlank hc) [] cs
    obtain ⟨d, rest, hrest⟩ : ∃ d rest, Uri.dropSlashes cs ++ suffix.toList = d :: rest := by
      apply List.exists_cons_of_ne_nil
      intro hnil
      rw [(List.append_eq_nil_iff.mp hnil).2] at hslash
      cases hslash
    rw [hdrop, List.cons_append, hrest] at htext
    exact absurd hparse (Uri.parse_of_isBlank htext hc uri)
  | unread hdivided => exact hdivided.not_isBlank
  | @trailing cs c hscheme hplain hc =>
    -- The blank keeps the slashes before it from being dropped, and so is read.
    have hdrop : Uri.dropSlashes (cs ++ [c]) = cs ++ [c] := by
      have hdrop := Uri.dropSlashes_append (ne_slash_of_isBlank hc) cs []
      rw [List.append_nil] at hdrop
      exact hdrop.trans (List.append_nil _)
    rw [hdrop, List.append_assoc, List.singleton_append] at htext
    have hlength : 8 ≤ cs.length := by
      have hlength : (cs.take 8).length = 8 := by
        rw [← List.length_map (f := Char.toLower), hscheme]
        rfl
      rw [List.length_take] at hlength
      omega
    obtain ⟨authority, path, tail, hdivided⟩ := Uri.exists_divided_of_parse
      (by rw [htext, List.take_append_of_le_length hlength, hscheme]) hparse
    rw [htext] at hdivided
    rw [hdivided.not_isBlank c (mem_takeWhile_of_isBlank hplain hc _)] at hc
    cases hc

end Below

end Registration

namespace Client

variable {σ : Type} {read : Path → StateM σ (Except FileError Bytes)} {w : σ}

theorem run_configureFile {path : Path} {context : String} {content : Except FileError Bytes} {w' : σ}
    (h : (read path).run w = (content, w')) :
    (configureFile read path context).run w =
      (match Kubeconfig.ofFile path content with
        | .error e => pure (.error (.config e))
        | .ok config => configure (runCommand read) config context :
        StateM σ (Except Error Configuration)).run w' := by
  unfold configureFile
  rw [StateT.run_bind, h]
  rfl

theorem host_of_openFile {path : Path} {context : String} {session : Session}
    (h : ((openFile read path context).run w).1 = .ok session) :
    ∃ config resolved, Kubeconfig.ofFile path ((read path).run w).1 = .ok config ∧
      config.resolve context = .ok resolved ∧ session.host = resolved.cluster.server := by
  obtain ⟨c, hc, hsession⟩ : ∃ c, ((configureFile read path context).run w).1 = .ok c ∧
      session = c.session := by
    unfold openFile at h
    rw [StateT.run_bind] at h
    generalize (configureFile read path context).run w = configured at h ⊢
    obtain ⟨configuration, w'⟩ := configured
    cases configuration with
    | error e => cases h
    | ok c =>
      refine ⟨c, rfl, ?_⟩
      have h : ((Tls.check read c).run w').1.map (fun _ => c.session) = .ok session := h
      obtain ⟨_, -, hsession⟩ := exists_of_map_eq_ok h
      exact hsession.symm
  obtain ⟨content, w', hread⟩ : ∃ content w', (read path).run w = (content, w') := ⟨_, _, rfl⟩
  rw [run_configureFile hread] at hc
  rw [hread]
  cases hconfig : Kubeconfig.ofFile path content with
  | error e =>
    rw [hconfig] at hc
    cases hc
  | ok config =>
    rw [hconfig] at hc
    obtain ⟨resolved, -, hresolved, -, hhost, -⟩ := configure_eq_ok_iff.mp hc
    exact ⟨config, resolved, rfl, hresolved, hsession ▸ hhost⟩

end Client

namespace Client.Session

theorem exists_address {session : Session} {r : Request}
    (h : ∃ authority path tail, Uri.Divided session.host.toList authority path tail)
    (hnames : ∀ name ∈ r.names, IsDnsName name)
    (hlength : (r.addressText session.host).utf8ByteSize ≤ Uri.maxLength) :
    ∃ uri, session.address r = .ok uri := by
  obtain ⟨authority, path, tail, hdivided⟩ := h
  have hchars := isDnsChar_addressNames hnames
  rw [address_eq]
  refine Uri.exists_parse_below hdivided ?_ ?_ hlength
  . rw [String.toList_ofList]
    exact fun c hc => ⟨Place.isPathChar_pathOf hchars c hc, Place.isQueryChar_pathOf hchars c hc⟩
  . rw [String.toList_ofList]
    exact head?_pathOf_addressNames r

end Client.Session

namespace Registration

/--
The law of endpoints. The host that is published is the one that a client of the same context dials, but for
the blanks at its ends. The client finds the addresses of objects as long as it reads no blanks, and always if
the two hosts are the same.
-/
theorem endpoint_law {σ : Type} (read : Path → StateM σ (Except FileError Bytes)) (w : σ) (t : Target)
    (host : String) (session : Client.Session)
    (hhost : resolveHost t ((read t.kubeconfig).run w).1 = .ok host)
    (hsession : ((Client.openFile read t.kubeconfig t.context).run w).1 = .ok session) :
    host = Text.trim session.host ∧
      (∀ r : Request, (∀ name ∈ r.names, IsDnsName name) →
        (r.addressText session.host).utf8ByteSize ≤ Uri.maxLength →
          ((∃ uri, session.address r = .ok uri) ↔
            ∀ c ∈ session.host.toList.takeWhile (· != '#'), Text.isBlank c = false)) ∧
      (session.host = host → ∀ r : Request, (∀ name ∈ r.names, IsDnsName name) →
        (r.addressText session.host).utf8ByteSize ≤ Uri.maxLength → ∃ uri, session.address r = .ok uri) := by
  obtain ⟨config, resolved, hconfig, hresolved, hfault, htrim⟩ := resolveHost_eq_ok_iff.mp hhost
  obtain ⟨config', resolved', hconfig', hresolved', hserver⟩ := Client.host_of_openFile hsession
  rw [hconfig] at hconfig'
  cases hconfig'
  rw [hresolved] at hresolved'
  cases hresolved'
  rw [← hserver] at htrim
  have hspaced : Spaced session.host.toList := spaced_of_trim (htrim ▸ hfault)
  refine ⟨htrim, fun r hnames hlength => ⟨?_, fun hblank => ?_⟩, fun hsame r hnames hlength => ?_⟩
  . rintro ⟨uri, huri⟩
    rw [Client.Session.address_eq] at huri
    refine hspaced.not_isBlank ?_ huri
    rw [String.toList_ofList]
    exact Client.Session.head?_pathOf_addressNames r
  . exact Client.Session.exists_address (hspaced.exists_divided hblank) hnames hlength
  . exact Client.Session.exists_address (exists_divided_of_endpointFault? (hsame ▸ hfault)) hnames hlength

section Sample

def sampleServer : String :=
  " https://10.0.0.1:6443 "

def sampleConfig : Kubeconfig where
  clusters := [⟨"source", { certificateAuthorityData := some "YQ==", server := sampleServer }⟩]
  contexts := [⟨"kind-source", { cluster := "source", user := "admin" }⟩]
  users := [⟨"admin", { token := some "t" }⟩]

def sampleTarget : Target :=
  ⟨⟨"config"⟩, "kind-source"⟩

def sampleSession : Client.Session :=
  ⟨sampleServer, some "t"⟩

def sampleRead : Path → StateM Unit (Except FileError Bytes) :=
  fun _ => pure (.ok (Text.Utf8.encode sampleConfig.toYaml))

theorem run_sampleRead (path : Path) :
    (sampleRead path).run () = (.ok (Text.Utf8.encode sampleConfig.toYaml), ()) := by
  unfold sampleRead
  rw [StateT.run_pure]
  rfl

theorem ofFile_sampleConfig :
    Kubeconfig.ofFile sampleTarget.kubeconfig (.ok (Text.Utf8.encode sampleConfig.toYaml)) =
      .ok { sampleConfig with path := sampleTarget.kubeconfig } := by
  unfold Kubeconfig.ofFile
  dsimp only
  rw [Kubeconfig.ofYaml_toYaml]
  rfl

theorem resolveHost_sampleTarget :
    resolveHost sampleTarget ((sampleRead sampleTarget.kubeconfig).run ()).1 =
      .ok "https://10.0.0.1:6443" := by
  rw [run_sampleRead]
  exact resolveHost_eq_ok_iff.mpr
    ⟨_, _, ofFile_sampleConfig, rfl, by decide +kernel, by decide +kernel⟩

theorem openFile_sampleTarget :
    ((Client.openFile sampleRead sampleTarget.kubeconfig sampleTarget.context).run ()).1 =
      .ok sampleSession := by
  have hconfigured :
      (Client.configureFile sampleRead sampleTarget.kubeconfig sampleTarget.context).run () =
        (.ok ⟨sampleServer, .data [97], some "t", none⟩, ()) := by
    rw [Client.run_configureFile (run_sampleRead sampleTarget.kubeconfig), ofFile_sampleConfig]
    rfl
  unfold Client.openFile
  rw [StateT.run_bind, hconfigured]
  rfl

theorem endpoint_law_of_sample :
    resolveHost sampleTarget ((sampleRead sampleTarget.kubeconfig).run ()).1 = .ok "https://10.0.0.1:6443" ∧
      ((Client.openFile sampleRead sampleTarget.kubeconfig sampleTarget.context).run ()).1 =
        .ok sampleSession ∧
      "https://10.0.0.1:6443" = Text.trim sampleSession.host ∧
      ¬ ∃ uri, sampleSession.address (.list .secret .all) = .ok uri := by
  obtain ⟨htrim, haddress, -⟩ := endpoint_law sampleRead () sampleTarget _ _ resolveHost_sampleTarget
    openFile_sampleTarget
  refine ⟨resolveHost_sampleTarget, openFile_sampleTarget, htrim, ?_⟩
  intro huri
  have hblank := (haddress (.list .secret .all) (by decide) (by decide)).mp huri ' ' (by decide)
  cases hblank

theorem published_host_not_dialed :
    ¬ ∀ (read : Path → StateM Unit (Except FileError Bytes)) (t : Target) (host : String)
      (session : Client.Session),
      resolveHost t ((read t.kubeconfig).run ()).1 = .ok host →
        ((Client.openFile read t.kubeconfig t.context).run ()).1 = .ok session →
          session.host = host ∧
            ∀ r : Request, (∀ name ∈ r.names, IsDnsName name) →
              (r.addressText session.host).utf8ByteSize ≤ Uri.maxLength →
                ∃ uri, session.address r = .ok uri := by
  intro hsame
  obtain ⟨hhost, -⟩ := hsame sampleRead sampleTarget _ _ resolveHost_sampleTarget openFile_sampleTarget
  exact absurd hhost (by decide)

end Sample

end Registration

end ClusterRegistration
