import ClusterRegistration.Proofs.Client.Token
import ClusterRegistration.Proofs.Registration.Descriptor

namespace ClusterRegistration

inductive Path.Beside (file p : Path) : Path → Prop where
  | kept (h : p.isAbsolute = true ∨ file.parent? = none) : Beside file p p
  | joined {directory : Path} (hp : p.isAbsolute = false) (h : file.parent? = some directory) :
    Beside file p (directory.join p)

theorem Path.relativeTo_eq_iff {file p q : Path} : relativeTo file.parent? p = q ↔ file.Beside p q := by
  unfold relativeTo
  constructor
  . rintro rfl
    cases hparent : file.parent? with
    | none => exact .kept (.inr hparent)
    | some directory =>
      cases hp : p.isAbsolute with
      | true =>
        show file.Beside p (directory.join p)
        rw [join_of_isAbsolute hp]
        exact .kept (.inl hp)
      | false => exact .joined hp hparent
  . rintro (h | ⟨-, h⟩)
    . rcases h with hp | hparent
      . split
        . exact join_of_isAbsolute hp
        . rfl
      . rw [hparent]
    . rw [h]

structure ClusterDetail.Matches (d d' : ClusterDetail) : Prop where
  server : d.server = d'.server
  insecure : d.insecureSkipTlsVerify = d'.insecureSkipTlsVerify
  data : d.certificateAuthorityData = d'.certificateAuthorityData
  path : d.certificateAuthorityData = none → d.certificateAuthority = d'.certificateAuthority

structure UserDetail.Matches (u u' : UserDetail) : Prop where
  exec : u.exec = u'.exec
  crtData : u.exec = none → u.clientCertificateData = u'.clientCertificateData
  keyData : u.exec = none → u.clientCertificateData ≠ none → u.clientKeyData = u'.clientKeyData
  crt : u.exec = none → u.clientCertificateData = none → u.clientCertificate = u'.clientCertificate
  key : u.exec = none → u.clientCertificateData = none → u.clientCertificate ≠ none → u.clientKey = u'.clientKey
  token : u.exec = none → u.clientCertificateData = none → u.clientCertificate = none → u.token = u'.token

section Entries

variable {α : Type} {R : α → α → Prop} {name : String} {es es' : List (Named α)}

def Named.Match (R : α → α → Prop) (name : String) (es es' : List (Named α)) : Prop :=
  List.Forall₂ (fun e e' => R e.detail e'.detail) (es.filter (·.name = name)) (es'.filter (·.name = name))

theorem Named.find?_eq_head? (name : String) (es : List (Named α)) :
    find? name es = (es.filter (·.name = name)).head? :=
  List.head?_filter.symm

theorem Named.find?_cases (h : Match R name es es') :
    (find? name es = none ∧ find? name es' = none) ∨
      ∃ e e', find? name es = some e ∧ find? name es' = some e' ∧ e.name = e'.name ∧ R e.detail e'.detail := by
  unfold Match at h
  have hname {e : Named α} (he : find? name es = some e) : e.name = name := by
    simpa using List.find?_some he
  have hname' {e : Named α} (he : find? name es' = some e) : e.name = name := by
    simpa using List.find?_some he
  rw [find?_eq_head?] at hname hname'
  rw [find?_eq_head?, find?_eq_head?]
  generalize es.filter (·.name = name) = found, es'.filter (·.name = name) = found' at h hname hname'
  cases h with
  | nil => exact .inl ⟨rfl, rfl⟩
  | @cons e e' _ _ hdetail _ =>
    exact .inr ⟨e, e', rfl, rfl, (hname rfl).trans (hname' rfl).symm, hdetail⟩

end Entries

/--
Kubeconfigs that say the same of a context as far as it matters: they lie at the same path, and entries that its
name leads to match.
-/
structure Kubeconfig.Matches (config config' : Kubeconfig) (context : String) : Prop where
  path : config.path = config'.path
  contexts : Named.Match (fun d d' => d.cluster = d'.cluster ∧ d.user = d'.user) context config.contexts
    config'.contexts
  clusters : ∀ entry, config.context? context = some entry →
    Named.Match ClusterDetail.Matches entry.detail.cluster config.clusters config'.clusters
  users : ∀ entry, config.context? context = some entry →
    Named.Match UserDetail.Matches entry.detail.user config.users config'.users

theorem Kubeconfig.resolve_cases {config config' : Kubeconfig} {context : String}
    (h : config.Matches config' context) :
    (∃ e, config.resolve context = .error e ∧ config'.resolve context = .error e) ∨
      ∃ r r', config.resolve context = .ok r ∧ config'.resolve context = .ok r' ∧ r.name = r'.name ∧
        r.cluster.Matches r'.cluster ∧ r.user.Matches r'.user := by
  unfold resolve
  rcases Named.find?_cases h.contexts with
    ⟨hcontext, hcontext'⟩ | ⟨entry, entry', hcontext, hcontext', hname, hcluster, huser⟩
  . unfold context?
    rw [hcontext, hcontext']
    exact .inl ⟨_, rfl, rfl⟩
  . have hclusters := h.clusters entry hcontext
    have husers := h.users entry hcontext
    unfold context? cluster? user?
    rw [hcontext, hcontext']
    dsimp only
    rw [← hcluster, ← huser]
    rcases Named.find?_cases hclusters with ⟨hfound, hfound'⟩ | ⟨cluster, cluster', hfound, hfound', -, hmatch⟩
    . rw [hfound, hfound']
      exact .inl ⟨_, rfl, rfl⟩
    . rw [hfound, hfound']
      dsimp only
      rcases Named.find?_cases husers with ⟨hfound, hfound'⟩ | ⟨user, user', hfound, hfound', -, hmatch'⟩
      . rw [hfound, hfound']
        exact .inl ⟨_, rfl, rfl⟩
      . rw [hfound, hfound']
        exact .inr ⟨_, _, rfl, rfl, hname, hmatch, hmatch'⟩

namespace Client

open Kubeconfig (Resolved)

/--
The authority that a cluster is vouched for by: its data if there is some, and else its path.
-/
inductive Vouches (file : Path) (d : ClusterDetail) : CaSource → Prop where
  | data {text : String} {bytes : Bytes} (hdata : d.certificateAuthorityData = some text)
    (h : Text.IsBase64 text bytes) : Vouches file d (.data bytes)
  | path {path : String} {p : Path} (hdata : d.certificateAuthorityData = none)
    (hpath : d.certificateAuthority = some path) (h : file.Beside ⟨path⟩ p) : Vouches file d (.path p)

/--
The login of a user: what comes first of a command, a certificate as data, one in files, and a token.
-/
inductive Chooses (file : Path) (u : UserDetail) : Login → Prop where
  | exec {command : ExecCommand} (hexec : u.exec = some command) : Chooses file u (.exec command)
  | data {crtText keyText : String} {crt key : Bytes} (hexec : u.exec = none)
    (hcrt : u.clientCertificateData = some crtText) (hkey : u.clientKeyData = some keyText)
    (hcrt' : Text.IsBase64 crtText crt) (hkey' : Text.IsBase64 keyText key) :
    Chooses file u (.certificate (.data crt key))
  | paths {crtPath keyPath : String} {crt key : Path} (hexec : u.exec = none)
    (hdata : u.clientCertificateData = none) (hcrt : u.clientCertificate = some crtPath)
    (hkey : u.clientKey = some keyPath) (hcrt' : file.Beside ⟨crtPath⟩ crt) (hkey' : file.Beside ⟨keyPath⟩ key) :
    Chooses file u (.certificate (.paths crt key))
  | token {t : String} (hexec : u.exec = none) (hdata : u.clientCertificateData = none)
    (hcrt : u.clientCertificate = none) (htoken : u.token = some t) : Chooses file u (.token t)

inductive Presents (output : ExecCommand → Except FileError Command.Output) :
    Login → Option String → Option Certificate → Prop where
  | exec {command : ExecCommand} {token : String} (h : Printed (output command) token) :
    Presents output (.exec command) (some token) none
  | certificate (c : Certificate) : Presents output (.certificate c) none (some c)
  | token (t : String) : Presents output (.token t) (some t) none

theorem decodeBase64_eq_ok_iff {s : String} {bytes : Bytes} :
    decodeBase64 s = .ok bytes ↔ Text.IsBase64 s bytes := by
  rw [← Text.decode_eq_ok_iff]
  unfold decodeBase64
  split
  . next bytes' hbytes => rw [hbytes, Except.ok.injEq, Except.ok.injEq]
  . next e he =>
    rw [he]
    exact iff_of_false nofun nofun

section Choice

variable {file : Path} {r : Resolved} {u : UserDetail}

theorem vouches_of_caSource {ca : CaSource} (h : caSource file.parent? r = .ok ca) :
    r.cluster.insecureSkipTlsVerify ≠ some true ∧ Vouches file r.cluster ca := by
  unfold caSource at h
  split at h
  . cases h
  . next hsecure =>
    refine ⟨hsecure, ?_⟩
    split at h
    . next text hdata =>
      obtain ⟨bytes, hbytes, rfl⟩ := exists_of_map_eq_ok h
      exact .data hdata (decodeBase64_eq_ok_iff.mp hbytes)
    . next path hdata hpath =>
      cases h
      exact .path hdata hpath (Path.relativeTo_eq_iff.mp rfl)
    . cases h

theorem caSource_of_vouches {ca : CaSource} (hsecure : r.cluster.insecureSkipTlsVerify ≠ some true)
    (h : Vouches file r.cluster ca) : caSource file.parent? r = .ok ca := by
  unfold caSource
  rw [if_neg hsecure]
  cases h with
  | data hdata hbytes =>
    simp only [hdata, decodeBase64_eq_ok_iff.mpr hbytes]
    rfl
  | path hdata hpath hp =>
    simp only [hdata, hpath]
    rw [Path.relativeTo_eq_iff.mpr hp]

theorem chooses_of_login {l : Login} (h : login file.parent? u = .ok l) : Chooses file u l := by
  unfold login at h
  split at h
  . next command _ _ _ hexec =>
    cases h
    exact .exec hexec
  . next crtText _ _ hexec hcrt =>
    obtain ⟨crt, hcrt', h⟩ := exists_of_bind_eq_ok h
    split at h
    . next keyText hkey =>
      obtain ⟨key, hkey', h⟩ := exists_of_bind_eq_ok h
      cases h
      exact .data hexec hcrt hkey (decodeBase64_eq_ok_iff.mp hcrt') (decodeBase64_eq_ok_iff.mp hkey')
    . cases h
  . next crtPath _ hexec hdata hcrt =>
    split at h
    . next keyPath hkey =>
      cases h
      exact .paths hexec hdata hcrt hkey (Path.relativeTo_eq_iff.mp rfl) (Path.relativeTo_eq_iff.mp rfl)
    . cases h
  . next t hexec hdata hcrt htoken =>
    cases h
    exact .token hexec hdata hcrt htoken
  . cases h

theorem login_of_chooses {l : Login} (h : Chooses file u l) : login file.parent? u = .ok l := by
  unfold login
  cases h with
  | exec hexec => simp only [hexec]
  | data hexec hcrt hkey hcrt' hkey' =>
    simp only [hexec, hcrt, hkey, decodeBase64_eq_ok_iff.mpr hcrt', decodeBase64_eq_ok_iff.mpr hkey']
    rfl
  | paths hexec hdata hcrt hkey hcrt' hkey' =>
    simp only [hexec, hdata, hcrt, hkey]
    rw [Path.relativeTo_eq_iff.mpr hcrt', Path.relativeTo_eq_iff.mpr hkey']
  | token hexec hdata hcrt htoken => simp only [hexec, hdata, hcrt, htoken]

end Choice

section Outcome

variable {config : Kubeconfig} {context : String}

theorem plan_eq_ok_iff {p : Plan} :
    plan config context = .ok p ↔
      ∃ resolved, config.resolve context = .ok resolved ∧
        resolved.cluster.insecureSkipTlsVerify ≠ some true ∧ p.host = resolved.cluster.server ∧
          Vouches config.path resolved.cluster p.ca ∧ Chooses config.path resolved.user p.login := by
  unfold plan
  cases hresolved : config.resolve context with
  | error e =>
    refine iff_of_false nofun ?_
    rintro ⟨_, ⟨⟩, -⟩
  | ok resolved =>
    dsimp only
    constructor
    . intro h
      obtain ⟨ca, hca, h⟩ := exists_of_bind_eq_ok h
      obtain ⟨l, hl, h⟩ := exists_of_bind_eq_ok h
      cases h
      obtain ⟨hsecure, hvouches⟩ := vouches_of_caSource hca
      exact ⟨resolved, rfl, hsecure, rfl, hvouches, chooses_of_login hl⟩
    . rintro ⟨_, ⟨⟩, hsecure, hhost, hvouches, hchooses⟩
      rw [caSource_of_vouches hsecure hvouches, login_of_chooses hchooses, ← hhost]
      rfl

variable {σ : Type} {run : ExecCommand → StateM σ (Except FileError Command.Output)} {w : σ}
  {c : Configuration}

theorem carryOut_eq_ok_iff {p : Plan} :
    ((p.carryOut run).run w).1 = .ok c ↔
      c.host = p.host ∧ c.ca = p.ca ∧
        Presents (fun command => ((run command).run w).1) p.login c.token c.certificate := by
  obtain ⟨host, ca, l⟩ := p
  obtain ⟨host', ca', token, certificate⟩ := c
  cases l with
  | exec command =>
    have hrun : ((Plan.carryOut run ⟨host, ca, .exec command⟩).run w).1 =
        (tokenOf ((run command).run w).1).map (fun token => ⟨host, ca, some token, none⟩) := rfl
    rw [hrun]
    constructor
    . intro h
      obtain ⟨t, htoken, ht⟩ := exists_of_map_eq_ok h
      cases ht
      exact ⟨rfl, rfl, .exec (tokenOf_eq_ok_iff.mp htoken)⟩
    . rintro ⟨rfl, rfl, ⟨htoken⟩⟩
      rw [tokenOf_eq_ok_iff.mpr htoken]
      rfl
  | certificate crt =>
    constructor
    . intro h
      cases h
      exact ⟨rfl, rfl, .certificate crt⟩
    . rintro ⟨rfl, rfl, ⟨⟩⟩
      rfl
  | token t =>
    constructor
    . intro h
      cases h
      exact ⟨rfl, rfl, .token t⟩
    . rintro ⟨rfl, rfl, ⟨⟩⟩
      rfl

theorem configure_eq_ok_iff :
    ((configure run config context).run w).1 = .ok c ↔
      ∃ resolved l, config.resolve context = .ok resolved ∧
        resolved.cluster.insecureSkipTlsVerify ≠ some true ∧ c.host = resolved.cluster.server ∧
          Vouches config.path resolved.cluster c.ca ∧ Chooses config.path resolved.user l ∧
            Presents (fun command => ((run command).run w).1) l c.token c.certificate := by
  unfold configure
  cases hplan : plan config context with
  | error e =>
    refine iff_of_false nofun ?_
    rintro ⟨resolved, l, hresolved, hsecure, -, hvouches, hchooses, -⟩
    have hok : plan config context = .ok ⟨resolved.cluster.server, c.ca, l⟩ :=
      plan_eq_ok_iff.mpr ⟨resolved, hresolved, hsecure, rfl, hvouches, hchooses⟩
    rw [hplan] at hok
    cases hok
  | ok p =>
    dsimp only
    rw [carryOut_eq_ok_iff]
    obtain ⟨resolved, hresolved, hsecure, hhost, hvouches, hchooses⟩ := plan_eq_ok_iff.mp hplan
    constructor
    . rintro ⟨hhost', hca, hpresents⟩
      exact ⟨resolved, p.login, hresolved, hsecure, hhost'.trans hhost, hca ▸ hvouches, hchooses, hpresents⟩
    . rintro ⟨resolved', l, hresolved', hsecure', hhost', hvouches', hchooses', hpresents⟩
      have hok : plan config context = .ok ⟨c.host, c.ca, l⟩ :=
        plan_eq_ok_iff.mpr ⟨resolved', hresolved', hsecure', hhost', hvouches', hchooses'⟩
      rw [hplan] at hok
      cases hok
      exact ⟨rfl, rfl, hpresents⟩

theorem configure_of_insecure {m : Type → Type} [Monad m] {run : ExecCommand → m (Except FileError Command.Output)}
    {resolved : Resolved} (hresolved : config.resolve context = .ok resolved)
    (h : resolved.cluster.insecureSkipTlsVerify = some true) :
    ∃ e, configure run config context = pure (.error e) := by
  cases hplan : plan config context with
  | error e =>
    unfold configure
    rw [hplan]
    exact ⟨e, rfl⟩
  | ok p =>
    obtain ⟨resolved', hresolved', hsecure, -⟩ := plan_eq_ok_iff.mp hplan
    rw [hresolved] at hresolved'
    cases hresolved'
    exact absurd h hsecure

theorem configure_cases {m : Type → Type} [Monad m] [LawfulMonad m]
    (run : ExecCommand → m (Except FileError Command.Output)) (config : Kubeconfig) (context : String) :
    (∃ r, configure run config context = pure r) ∨
      ∃ resolved command f, config.resolve context = .ok resolved ∧ resolved.user.exec = some command ∧
        configure run config context = f <$> run command := by
  unfold configure
  cases hplan : plan config context with
  | error e => exact .inl ⟨_, rfl⟩
  | ok p =>
    obtain ⟨resolved, hresolved, -, -, -, hchooses⟩ := plan_eq_ok_iff.mp hplan
    obtain ⟨host, ca, l⟩ := p
    cases hchooses with
    | exec hexec =>
      refine .inr ⟨resolved, _, fun output => (tokenOf output).map (fun token => ⟨host, ca, some token, none⟩),
        hresolved, hexec, ?_⟩
      exact (map_eq_pure_bind _ _).symm
    | data | paths | token => exact .inl ⟨_, rfl⟩

end Outcome

section Matching

variable {config config' : Kubeconfig} {context : String} {directory? : Option Path}

theorem caSource_congr {r r' : Resolved} (hname : r.name = r'.name) (h : r.cluster.Matches r'.cluster) :
    caSource directory? r = caSource directory? r' := by
  unfold caSource
  rw [hname, h.insecure, ← h.data]
  cases hdata : r.cluster.certificateAuthorityData with
  | none => rw [h.path hdata]
  | some text => rfl

theorem login_congr {u u' : UserDetail} (h : u.Matches u') : login directory? u = login directory? u' := by
  unfold login
  rw [← h.exec]
  cases hexec : u.exec with
  | some command => rfl
  | none =>
    rw [← h.crtData hexec]
    cases hdata : u.clientCertificateData with
    | some text =>
      rw [h.keyData hexec (hdata ▸ Option.some_ne_none text)]
    | none =>
      rw [← h.crt hexec hdata]
      cases hcrt : u.clientCertificate with
      | some path => rw [h.key hexec hdata (hcrt ▸ Option.some_ne_none path)]
      | none =>
        rw [h.token hexec hdata hcrt]
        cases u'.token <;> rfl

theorem plan_congr (h : config.Matches config' context) : plan config context = plan config' context := by
  unfold plan
  rcases Kubeconfig.resolve_cases h with
    ⟨e, hresolved, hresolved'⟩ | ⟨r, r', hresolved, hresolved', hname, hcluster, huser⟩
  . rw [hresolved, hresolved']
  . rw [hresolved, hresolved']
    simp only
    rw [h.path, caSource_congr hname hcluster, login_congr huser, hcluster.server]

theorem configure_congr {m : Type → Type} [Monad m] (run : ExecCommand → m (Except FileError Command.Output))
    (h : config.Matches config' context) : configure run config context = configure run config' context := by
  unfold configure
  rw [plan_congr h]

end Matching

namespace Builder

variable {β : Type} {b : Builder β} {config : Kubeconfig} {context : String} {resolved : Resolved}
  {ca : CaSource}

def load (b : Builder β) (c : Configuration) : Except Error β := do
  let loaded ← b.loadCa b.start c.ca
  match c.certificate with
  | some crt => b.loadCertificate loaded crt
  | none => pure loaded

theorem trusting_of_caSource {directory? : Option Path} (h : caSource directory? resolved = .ok ca) :
    b.trusting directory? resolved = b.loadCa b.start ca := by
  unfold trusting
  rw [h]
  rfl

theorem trusting_of_error {directory? : Option Path} {e : Error} (h : caSource directory? resolved = .error e) :
    b.trusting directory? resolved = .error e := by
  unfold trusting
  rw [h]
  rfl

theorem trusting_of_vouches (hsecure : resolved.cluster.insecureSkipTlsVerify ≠ some true)
    (h : Vouches config.path resolved.cluster ca) :
    b.trusting config.path.parent? resolved = b.loadCa b.start ca :=
  trusting_of_caSource (caSource_of_vouches hsecure h)

theorem exists_of_trusting {loaded : β} (h : b.trusting config.path.parent? resolved = .ok loaded) :
    ∃ ca, caSource config.path.parent? resolved = .ok ca ∧ b.loadCa b.start ca = .ok loaded :=
  exists_of_bind_eq_ok h

section State

variable {σ : Type} {run : ExecCommand → StateM σ (Except FileError Command.Output)} {w : σ} {r : Built β}

theorem present_eq_ok_iff {host : String} {loaded : β} {l : Login} (hloaded : b.loadCa b.start ca = .ok loaded) :
    ((b.present run host loaded l).run w).1 = .ok r ↔
      ∃ c, ((Plan.carryOut run ⟨host, ca, l⟩).run w).1 = .ok c ∧
        b.load c = .ok r.loaded ∧ r.host = c.host ∧ r.token = c.token := by
  obtain ⟨host', token', loaded'⟩ := r
  have hload (c : Configuration) (hca : c.ca = ca) :
      b.load c = match c.certificate with
        | some crt => b.loadCertificate loaded crt
        | none => .ok loaded := by
    unfold load
    rw [hca, hloaded]
    rfl
  constructor
  . intro h
    cases l with
    | exec command =>
      obtain ⟨t, htoken, ht⟩ := exists_of_map_eq_ok h
      cases ht
      refine ⟨⟨host, ca, some t, none⟩, ?_, hload _ rfl, rfl, rfl⟩
      exact congrArg (Except.map fun token => (⟨host, ca, some token, none⟩ : Configuration)) htoken
    | certificate crt =>
      obtain ⟨taken, htaken, ht⟩ := exists_of_map_eq_ok h
      cases ht
      exact ⟨⟨host, ca, none, some crt⟩, rfl, (hload _ rfl).trans htaken, rfl, rfl⟩
    | token t =>
      cases h
      exact ⟨⟨host, ca, some t, none⟩, rfl, hload _ rfl, rfl, rfl⟩
  . rintro ⟨c, hc, hloads, hhost, htoken⟩
    obtain ⟨hhost', hca, hpresents⟩ := carryOut_eq_ok_iff.mp hc
    rw [hload c hca] at hloads
    obtain rfl : host' = host := hhost.trans hhost'
    obtain rfl : token' = c.token := htoken
    generalize c.token = token, c.certificate = certificate at hpresents hloads
    cases hpresents with
    | exec hprinted =>
      cases hloads
      exact congrArg (Except.map fun token => (⟨host', some token, loaded'⟩ : Built β))
        (tokenOf_eq_ok_iff.mpr hprinted)
    | certificate crt =>
      exact congrArg (Except.map fun loaded => (⟨host', none, loaded⟩ : Built β)) hloads
    | token t =>
      cases hloads
      rfl

theorem configure_eq_ok_iff :
    ((b.configure run config context).run w).1 = .ok r ↔
      ∃ c, ((Client.configure run config context).run w).1 = .ok c ∧
        b.load c = .ok r.loaded ∧ r.host = c.host ∧ r.token = c.token := by
  unfold configure Client.configure plan
  cases config.resolve context with
  | error e => exact iff_of_false nofun (by rintro ⟨c, hc, -⟩; cases hc)
  | ok resolved =>
    dsimp only
    cases hca : caSource config.path.parent? resolved with
    | error e =>
      rw [trusting_of_error hca]
      exact iff_of_false nofun (by rintro ⟨c, hc, -⟩; cases hc)
    | ok ca =>
      rw [trusting_of_caSource hca]
      cases hlogin : login config.path.parent? resolved.user with
      | error e =>
        refine iff_of_false ?_ (by rintro ⟨c, hc, -⟩; cases hc)
        cases b.loadCa b.start ca with
        | error e' => nofun
        | ok loaded => nofun
      | ok l =>
        cases hloaded : b.loadCa b.start ca with
        | ok loaded => exact present_eq_ok_iff hloaded
        | error e =>
          refine iff_of_false nofun ?_
          rintro ⟨c, hc, hloads, -⟩
          obtain ⟨-, hca', -⟩ := carryOut_eq_ok_iff.mp hc
          unfold load at hloads
          rw [hca', hloaded] at hloads
          cases hloads

end State

variable {m : Type → Type} [Monad m] {run : ExecCommand → m (Except FileError Command.Output)} {e : Error}

theorem configure_of_loadCa (hresolved : config.resolve context = .ok resolved)
    (hsecure : resolved.cluster.insecureSkipTlsVerify ≠ some true)
    (hvouches : Vouches config.path resolved.cluster ca)
    (h : b.loadCa b.start ca = .error e) : b.configure run config context = pure (.error e) := by
  unfold configure
  rw [hresolved]
  dsimp only
  rw [trusting_of_vouches hsecure hvouches, h]

theorem configure_of_loadCertificate {loaded : β} {crt : Certificate}
    (hresolved : config.resolve context = .ok resolved)
    (hsecure : resolved.cluster.insecureSkipTlsVerify ≠ some true)
    (hvouches : Vouches config.path resolved.cluster ca)
    (hloaded : b.loadCa b.start ca = .ok loaded) (hchooses : Chooses config.path resolved.user (.certificate crt))
    (h : b.loadCertificate loaded crt = .error e) : b.configure run config context = pure (.error e) := by
  unfold configure
  rw [hresolved]
  dsimp only
  rw [trusting_of_vouches hsecure hvouches, hloaded, login_of_chooses hchooses]
  dsimp only [present]
  rw [h]
  rfl

theorem configure_of_insecure (hresolved : config.resolve context = .ok resolved)
    (h : resolved.cluster.insecureSkipTlsVerify = some true) :
    ∃ e, b.configure run config context = pure (.error e) := by
  unfold configure
  rw [hresolved]
  dsimp only
  cases htrusting : b.trusting config.path.parent? resolved with
  | error e => exact ⟨e, rfl⟩
  | ok loaded =>
    obtain ⟨ca, hca, -⟩ := exists_of_trusting htrusting
    exact absurd h (vouches_of_caSource hca).1

theorem configure_cases [LawfulMonad m] (b : Builder β) (run : ExecCommand → m (Except FileError Command.Output))
    (config : Kubeconfig) (context : String) :
    (∃ r, b.configure run config context = pure r) ∨
      ∃ resolved command f, config.resolve context = .ok resolved ∧ resolved.user.exec = some command ∧
        b.configure run config context = f <$> run command := by
  unfold configure
  cases hresolved : config.resolve context with
  | error e => exact .inl ⟨_, rfl⟩
  | ok resolved =>
    dsimp only
    cases b.trusting config.path.parent? resolved with
    | error e => exact .inl ⟨_, rfl⟩
    | ok loaded =>
      cases hlogin : login config.path.parent? resolved.user with
      | error e => exact .inl ⟨_, rfl⟩
      | ok l =>
        cases chooses_of_login hlogin with
        | exec hexec =>
          refine .inr ⟨resolved, _, fun output => (tokenOf output).map fun token =>
            ⟨resolved.cluster.server, some token, loaded⟩, rfl, hexec, ?_⟩
          exact (map_eq_pure_bind _ _).symm
        | data | paths | token => exact .inl ⟨_, rfl⟩

theorem configure_congr {config' : Kubeconfig} (b : Builder β)
    (run : ExecCommand → m (Except FileError Command.Output)) (h : config.Matches config' context) :
    b.configure run config context = b.configure run config' context := by
  unfold configure trusting
  rcases Kubeconfig.resolve_cases h with
    ⟨e, hresolved, hresolved'⟩ | ⟨r, r', hresolved, hresolved', hname, hcluster, huser⟩
  . rw [hresolved, hresolved']
  . rw [hresolved, hresolved']
    simp only
    rw [h.path, caSource_congr hname hcluster, login_congr huser, hcluster.server]

end Builder

/--
A client trusts one authority and has one identity, each from the source that comes first; an insecure cluster is
always refused. Nothing is run but the command of the user, once and only if it comes first. Kubeconfigs that differ
in what comes later or has other names are the same to a client. All that holds for whatever takes the certificates,
and what it refuses is not replaced.
-/
theorem configuration_law {σ : Type} (run : ExecCommand → StateM σ (Except FileError Command.Output))
    (config : Kubeconfig) (context : String) :
    (∀ w c, ((configure run config context).run w).1 = .ok c ↔
      ∃ resolved l, config.resolve context = .ok resolved ∧
        resolved.cluster.insecureSkipTlsVerify ≠ some true ∧ c.host = resolved.cluster.server ∧
          Vouches config.path resolved.cluster c.ca ∧ Chooses config.path resolved.user l ∧
            Presents (fun command => ((run command).run w).1) l c.token c.certificate) ∧
    (∀ resolved, config.resolve context = .ok resolved → resolved.cluster.insecureSkipTlsVerify = some true →
      ∃ e, configure run config context = pure (.error e)) ∧
    ((∃ r, configure run config context = pure r) ∨
      ∃ resolved command f, config.resolve context = .ok resolved ∧ resolved.user.exec = some command ∧
        configure run config context = f <$> run command) ∧
    (∀ config', config.Matches config' context → configure run config' context = configure run config context) ∧
    ∀ {β : Type} (b : Builder β),
      (∀ w r, ((b.configure run config context).run w).1 = .ok r ↔
        ∃ c, ((configure run config context).run w).1 = .ok c ∧
          b.load c = .ok r.loaded ∧ r.host = c.host ∧ r.token = c.token) ∧
      (∀ resolved, config.resolve context = .ok resolved → resolved.cluster.insecureSkipTlsVerify = some true →
        ∃ e, b.configure run config context = pure (.error e)) ∧
      (∀ resolved ca, config.resolve context = .ok resolved → resolved.cluster.insecureSkipTlsVerify ≠ some true →
        Vouches config.path resolved.cluster ca →
          (∀ e, b.loadCa b.start ca = .error e → b.configure run config context = pure (.error e)) ∧
          ∀ loaded crt e, b.loadCa b.start ca = .ok loaded →
            Chooses config.path resolved.user (.certificate crt) →
              b.loadCertificate loaded crt = .error e → b.configure run config context = pure (.error e)) ∧
      ((∃ r, b.configure run config context = pure r) ∨
        ∃ resolved command f, config.resolve context = .ok resolved ∧ resolved.user.exec = some command ∧
          b.configure run config context = f <$> run command) ∧
      ∀ config', config.Matches config' context →
        b.configure run config' context = b.configure run config context := by
  refine ⟨fun w c => configure_eq_ok_iff, fun resolved => configure_of_insecure, configure_cases run config context,
    fun config' hmatches => (configure_congr run hmatches).symm, ?_⟩
  intro β b
  refine ⟨fun w r => b.configure_eq_ok_iff, fun resolved => b.configure_of_insecure, ?_,
    b.configure_cases run config context, fun config' hmatches => (b.configure_congr run hmatches).symm⟩
  intro resolved ca hresolved hsecure hvouches
  constructor
  . exact fun e h => b.configure_of_loadCa hresolved hsecure hvouches h
  . exact fun loaded crt e hloaded hchooses h =>
      b.configure_of_loadCertificate hresolved hsecure hvouches hloaded hchooses h

section Sample

def sampleChoice : Kubeconfig where
  path := ⟨"/etc/kube/config"⟩
  clusters := [⟨"source", {
    certificateAuthorityData := some "YQ=="
    certificateAuthority := some "ca.crt"
    server := "https://10.0.0.1:6443" }⟩]
  contexts := [⟨"kind-source", { cluster := "source", user := "admin" }⟩]
  users := [⟨"admin", {
    clientCertificate := some "admin.crt"
    clientKey := some "/keys/admin.key"
    token := some "t" }⟩]

def sampleAltered : Kubeconfig where
  path := ⟨"/etc/kube/config"⟩
  clusters := [⟨"destination", { server := "" }⟩, ⟨"source", {
    certificateAuthorityData := some "YQ=="
    server := "https://10.0.0.1:6443" }⟩]
  contexts := [⟨"kind-source", { cluster := "source", user := "admin" }⟩, ⟨"kind-destination", default⟩]
  users := [⟨"admin", {
    clientCertificate := some "admin.crt"
    clientKey := some "/keys/admin.key" }⟩]

def sampleInsecure : Kubeconfig :=
  { sampleChoice with clusters := [⟨"source", { insecureSkipTlsVerify := some true, server := "" }⟩] }

theorem matches_sampleAltered : sampleChoice.Matches sampleAltered "kind-source" := by
  have hcontext {entry : Context} (h : sampleChoice.context? "kind-source" = some entry) :
      entry = ⟨"kind-source", { cluster := "source", user := "admin" }⟩ := by
    cases h
    rfl
  refine ⟨rfl, .cons ⟨rfl, rfl⟩ .nil, ?_, ?_⟩
  . intro entry hentry
    cases hcontext hentry
    exact .cons ⟨rfl, rfl, rfl, nofun⟩ .nil
  . intro entry hentry
    cases hcontext hentry
    exact .cons ⟨rfl, fun _ => rfl, fun _ _ => rfl, fun _ _ => rfl, fun _ _ _ => rfl, nofun⟩ .nil

def runNothing : ExecCommand → StateM Unit (Except FileError Command.Output) :=
  fun _ => pure (.error .notFound)

def sampleBuilder : Builder Unit :=
  ⟨(), fun _ _ => .ok (), fun _ _ => .error (.other "no keys found")⟩

theorem configuration_law_of_sample :
    sampleChoice.Matches sampleAltered "kind-source" ∧
      ((configure runNothing sampleAltered "kind-source").run ()).1 = .ok {
        host := "https://10.0.0.1:6443"
        ca := .data [97]
        token := none
        certificate := some (.paths ⟨"/etc/kube/admin.crt"⟩ ⟨"/keys/admin.key"⟩) } ∧
      (∃ e, configure runNothing sampleInsecure "kind-source" = pure (.error e)) ∧
      sampleBuilder.configure runNothing sampleChoice "kind-source" = pure (.error (.other "no keys found")) := by
  obtain ⟨hiff, -, -, hsame, hbuilt⟩ := configuration_law runNothing sampleChoice "kind-source"
  obtain ⟨-, hinsecure, -⟩ := configuration_law runNothing sampleInsecure "kind-source"
  obtain ⟨-, -, hrefuses, -⟩ := hbuilt sampleBuilder
  have hca : Text.IsBase64 "YQ==" [97] := Text.decode_eq_ok_iff.mp (by decide +kernel)
  have hcrt : (⟨"/etc/kube/config"⟩ : Path).Beside ⟨"admin.crt"⟩ ⟨"/etc/kube/admin.crt"⟩ :=
    Path.relativeTo_eq_iff.mp (by decide +kernel)
  have hkey : (⟨"/etc/kube/config"⟩ : Path).Beside ⟨"/keys/admin.key"⟩ ⟨"/keys/admin.key"⟩ :=
    .kept (.inl (by decide +kernel))
  refine ⟨matches_sampleAltered, ?_, hinsecure _ rfl rfl, ?_⟩
  . rw [hsame sampleAltered matches_sampleAltered, hiff]
    exact ⟨_, _, rfl, nofun, rfl, .data rfl hca, .paths rfl rfl rfl rfl hcrt hkey, .certificate _⟩
  . exact (hrefuses _ _ rfl nofun (.data rfl hca)).2 () _ _ rfl (.paths rfl rfl rfl rfl hcrt hkey) rfl

end Sample

end Client

end ClusterRegistration
