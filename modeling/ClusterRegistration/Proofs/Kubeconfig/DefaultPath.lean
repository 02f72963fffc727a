import ClusterRegistration.Proofs.Kubeconfig.File
import ClusterRegistration.Proofs.Path

namespace ClusterRegistration.Kubeconfig.Environment

def listed (env : Environment) : List String :=
  (env.kubeconfig.map fun list => (list.toList.splitOn ':').map String.ofList).getD []

def inHome (home : String) : Path :=
  (Path.join ⟨home⟩ ⟨".kube"⟩).join ⟨"config"⟩

/--
Where a kubeconfig is to be found: at the first path of the list that is not empty, or in the home directory if
there is none.
-/
inductive Names (env : Environment) : Path → Prop where
  | listed {before after : List String} {path : String} (h : env.listed = before ++ path :: after)
    (hbefore : ∀ skipped ∈ before, skipped = "") (hpath : path ≠ "") : env.Names ⟨path⟩
  | home {home : String} (h : ∀ skipped ∈ env.listed, skipped = "") (hhome : env.home = some home) :
    env.Names (inHome home)

def BeginsEmpty (env : Environment) : Prop :=
  env.listed.head? = some ""

variable {env : Environment} {p : Path}

theorem components_inHome (home : String) :
    (inHome home).components = (Path.mk home).components ++ [.normal ".kube", .normal "config"] := by
  unfold inHome
  rw [Path.components_join (by decide +kernel), Path.components_join (by decide +kernel), List.append_assoc]
  rfl

theorem listed_of_none (h : env.kubeconfig = none) : env.listed = [] := by
  rw [listed, h]
  rfl

theorem exists_listed_of_some {list : String} (h : env.kubeconfig = some list) :
    ∃ path rest, env.listed = path :: rest ∧ env.defaultPath = .ok ⟨path⟩ := by
  obtain ⟨first, rest, hpieces⟩ := List.exists_cons_of_ne_nil (List.splitOn_ne_nil ':' list.toList)
  refine ⟨String.ofList first, rest.map String.ofList, ?_, ?_⟩
  . rw [listed, h, Option.map_some, Option.getD_some, hpieces, List.map_cons]
  . rw [defaultPath, h]
    simp only [hpieces]
    rfl

theorem names_cons_iff {path : String} {rest : List String} (h : env.listed = path :: rest) (hpath : path ≠ "") :
    env.Names p ↔ p = ⟨path⟩ := by
  constructor
  . intro hnames
    cases hnames with
    | @listed before _ _ hlisted hbefore _ =>
      rw [h] at hlisted
      cases before with
      | nil => rw [(List.cons.inj hlisted).1]
      | cons skipped before =>
        rw [← (List.cons.inj hlisted).1] at hbefore
        exact absurd (hbefore path List.mem_cons_self) hpath
    | home hempty _ =>
      rw [h] at hempty
      exact absurd (hempty path List.mem_cons_self) hpath
  . rintro rfl
    exact .listed (show env.listed = [] ++ path :: rest from h) nofun hpath

theorem names_nil_iff (h : env.listed = []) : env.Names p ↔ ∃ home, env.home = some home ∧ p = inHome home := by
  constructor
  . intro hnames
    cases hnames with
    | listed hlisted _ _ =>
      rw [h] at hlisted
      exact absurd hlisted.symm (List.append_ne_nil_of_right_ne_nil _ (List.cons_ne_nil _ _))
    | home _ hhome => exact ⟨_, hhome, rfl⟩
  . rintro ⟨home, hhome, rfl⟩
    refine .home ?_ hhome
    rw [h]
    nofun

theorem Names.text_ne (h : env.Names p) : p.text ≠ "" := by
  cases h with
  | listed _ _ hpath => exact hpath
  | @home home _ _ =>
    intro hempty
    have hcomponents := components_inHome home
    rw [show inHome home = ⟨""⟩ from congrArg Path.mk hempty] at hcomponents
    exact absurd hcomponents.symm (List.append_ne_nil_of_right_ne_nil _ (List.cons_ne_nil _ _))

theorem defaultPath_eq_ok_iff (h : ¬env.BeginsEmpty) : env.defaultPath = .ok p ↔ env.Names p := by
  cases hlist : env.kubeconfig with
  | some list =>
    obtain ⟨path, rest, hlisted, hdefault⟩ := exists_listed_of_some hlist
    have hpath : path ≠ "" := by
      rintro rfl
      exact h (by rw [BeginsEmpty, hlisted]; rfl)
    rw [names_cons_iff hlisted hpath, hdefault, Except.ok.injEq, eq_comm]
  | none =>
    rw [names_nil_iff (listed_of_none hlist), defaultPath, hlist]
    cases env.home with
    | none => simp
    | some home => simp [inHome, eq_comm]

theorem defaultPath_eq_error_iff {e : Error} :
    env.defaultPath = .error e ↔ e = .noHomeDirectory ∧ env.kubeconfig = none ∧ env.home = none := by
  unfold defaultPath
  cases env.kubeconfig with
  | some list => simp
  | none =>
    cases env.home with
    | some home => simp
    | none => simp [eq_comm]

theorem defaultPath_of_beginsEmpty (h : env.BeginsEmpty) : env.defaultPath = .ok ⟨""⟩ := by
  cases hlist : env.kubeconfig with
  | some list =>
    obtain ⟨path, rest, hlisted, hdefault⟩ := exists_listed_of_some hlist
    rw [BeginsEmpty, hlisted, List.head?_cons] at h
    rw [hdefault, Option.some.inj h]
  | none =>
    rw [BeginsEmpty, listed_of_none hlist] at h
    cases h

theorem load_of_defaultPath (h : env.defaultPath = .ok p) (files : FileTree) :
    env.load files = ofFile p (files.read p) := by
  rw [load, h]
  rfl

theorem load_of_beginsEmpty (h : env.BeginsEmpty) (files : FileTree) :
    env.load files = .error (.io FileError.notFound.message) := by
  rw [load_of_defaultPath (defaultPath_of_beginsEmpty h)]
  rfl

theorem load_eq_ok_iff {files : FileTree} {c : Kubeconfig} :
    env.load files = .ok c ↔ ∃ p content written, env.defaultPath = .ok p ∧ files.read p = .ok content ∧
      ofYaml content = .ok written ∧ c = { written with path := p } := by
  constructor
  . intro h
    obtain ⟨p, hdefault, h⟩ := exists_of_bind_eq_ok h
    unfold Kubeconfig.load ofFile at h
    split at h
    . next content hread =>
      obtain ⟨written, hwritten, rfl⟩ := exists_of_map_eq_ok h
      exact ⟨p, content, written, hdefault, hread, hwritten, rfl⟩
    . cases h
    . cases h
  . rintro ⟨p, content, written, hdefault, hread, hwritten, rfl⟩
    rw [load_of_defaultPath hdefault, hread, ofFile]
    simp only [hwritten]
    rfl

/--
The law of the default path. Unless the list begins with an empty path, the default path is where the kubeconfig is to
be found, and there is none just if there is neither a list nor a home directory. If it does, the default path is the
empty one, at which nothing can be read. What is loaded is what the file at the default path says, with that path, and
no other file makes a difference.
-/
theorem default_path_law (env : Environment) :
    (¬env.BeginsEmpty →
      (∀ p, env.defaultPath = .ok p ↔ env.Names p) ∧
        ∀ e, env.defaultPath = .error e ↔ e = .noHomeDirectory ∧ env.kubeconfig = none ∧ env.home = none) ∧
      (env.BeginsEmpty →
        env.defaultPath = .ok ⟨""⟩ ∧ ∀ files, env.load files = .error (.io FileError.notFound.message)) ∧
      (∀ p, env.Names p → p.text ≠ "") ∧
      (∀ home, (inHome home).components = (Path.mk home).components ++ [.normal ".kube", .normal "config"]) ∧
      ∀ files,
        (∀ c, env.load files = .ok c ↔ ∃ p content written, env.defaultPath = .ok p ∧
          files.read p = .ok content ∧ ofYaml content = .ok written ∧ c = { written with path := p }) ∧
        ∀ p, env.defaultPath = .ok p → ∀ files', files'.read p = files.read p → env.load files' = env.load files := by
  refine ⟨?_, ?_, fun p => Names.text_ne, components_inHome, fun files => ⟨fun c => load_eq_ok_iff, ?_⟩⟩
  . exact fun h => ⟨fun p => defaultPath_eq_ok_iff h, fun e => defaultPath_eq_error_iff⟩
  . exact fun h => ⟨defaultPath_of_beginsEmpty h, load_of_beginsEmpty h⟩
  . intro p hdefault files' hread
    rw [load_of_defaultPath hdefault, load_of_defaultPath hdefault, hread]

section Sample

theorem default_path_law_of_sample :
    let written (place : List String) : FileTree :=
      sampleFiles.put place (.file (Text.Utf8.encode sample.toYaml))
    let listed : Environment := ⟨some "/etc//kube:: other", some "/home/user"⟩
    let home : Environment := ⟨none, some "/home/user"⟩
    ¬listed.BeginsEmpty ∧ listed.Names ⟨"/etc//kube"⟩ ∧
      listed.load (written ["etc", "kube"]) = .ok { sample with path := ⟨"/etc//kube"⟩ } ∧
      ¬home.BeginsEmpty ∧ home.Names ⟨"/home/user/.kube/config"⟩ ∧
      home.load (written ["home", "user", ".kube", "config"]) =
        .ok { sample with path := ⟨"/home/user/.kube/config"⟩ } := by
  intro written listed home
  have hlisted : ¬listed.BeginsEmpty := by
    unfold BeginsEmpty
    decide +kernel
  have hhome : ¬home.BeginsEmpty := by
    unfold BeginsEmpty
    decide +kernel
  have hpath : home.defaultPath = .ok ⟨"/home/user/.kube/config"⟩ := by decide +kernel
  obtain ⟨hnames, -, -, -, hload⟩ := default_path_law listed
  obtain ⟨hnames', -, -, -, hload'⟩ := default_path_law home
  refine ⟨hlisted, ((hnames hlisted).1 _).mp rfl, ?_, hhome, ((hnames' hhome).1 _).mp hpath, ?_⟩
  . exact ((hload _).1 _).mpr ⟨_, Text.Utf8.encode sample.toYaml, _, rfl, rfl, ofYaml_toYaml sample, rfl⟩
  . exact ((hload' _).1 _).mpr ⟨_, Text.Utf8.encode sample.toYaml, _, hpath, rfl, ofYaml_toYaml sample, rfl⟩

theorem home_overlooked :
    let env : Environment := ⟨some "", some "home"⟩
    env.Names ⟨"home/.kube/config"⟩ ∧ env.defaultPath = .ok ⟨""⟩ ∧
      ∀ files, env.load files = .error (.io "No such file or directory (os error 2)") := by
  intro env
  have hbegins : env.BeginsEmpty := by
    unfold BeginsEmpty
    decide +kernel
  have hnames : env.Names (inHome "home") := .home (by decide +kernel) rfl
  have hpath : inHome "home" = ⟨"home/.kube/config"⟩ := by decide +kernel
  rw [hpath] at hnames
  exact ⟨hnames, defaultPath_of_beginsEmpty hbegins, load_of_beginsEmpty hbegins⟩

end Sample

end ClusterRegistration.Kubeconfig.Environment
