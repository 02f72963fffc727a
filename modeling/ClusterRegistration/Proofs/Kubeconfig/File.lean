import ClusterRegistration.Proofs.FileTree
import ClusterRegistration.Proofs.Kubeconfig.Text

namespace ClusterRegistration.Kubeconfig

theorem save_eq_ok_iff {c : Kubeconfig} {t t' : FileTree} {path : Path} :
    c.save t path = .ok t' ↔ t.write path (Text.Utf8.encode c.toYaml) = .ok t' := by
  unfold save
  cases t.write path (Text.Utf8.encode c.toYaml) with
  | ok written => simp
  | error e => simp

/--
A kubeconfig is read back whatever it holds. Only its path is not written: a text has none, and a file
has its own. It is written to any file, and to any place in a directory where nothing stands yet.
-/
theorem ofYaml_toYaml_and_load_save (c : Kubeconfig) :
    ofYaml (Text.Utf8.encode c.toYaml) = .ok { c with path := ⟨""⟩ } ∧
      ∀ (t : FileTree) (path : Path),
        ((∃ t', c.save t path = .ok t') ↔ ∃ place, t.Leads path place) ∧
          ∀ t', c.save t path = .ok t' → load t' path = .ok { c with path := path } := by
  refine ⟨ofYaml_toYaml c, fun t path => ⟨?_, ?_⟩⟩
  . simp only [save_eq_ok_iff, FileTree.write_eq_ok_iff]
    constructor
    . rintro ⟨t', place, hleads, -⟩
      exact ⟨place, hleads⟩
    . rintro ⟨place, hleads⟩
      exact ⟨_, place, hleads, rfl⟩
  . intro t' hsave
    have hread := FileTree.read_of_write (save_eq_ok_iff.mp hsave)
    unfold load ofFile
    rw [hread]
    simp only [ofYaml_toYaml]
    rfl

section Sample

def sample : Kubeconfig where
  path := ⟨"elsewhere"⟩
  clusters := [
    ⟨"null", { insecureSkipTlsVerify := some false, server := " https://a " }⟩,
    ⟨"null", { certificateAuthority := some "", server := "- b: #c" }⟩]
  contexts := [⟨"1e3", { cluster := "null", user := "~", ns := some "first\n  second\n\n" }⟩]
  currentContext := "0x1F"
  kind := "true"
  users := [⟨"~", { exec := some ⟨"", ["\x07", "é\t"], "'\""⟩ }⟩]

def sampleFiles : FileTree :=
  (FileTree.below ["work"]).put ["home", "user", "config"] (.file [])

theorem load_save_sample :
    let written := sampleFiles.put ["home", "user", "config"] (.file (Text.Utf8.encode sample.toYaml))
    ∀ path : Path, path = ⟨"/home/./user//config"⟩ ∨ path = ⟨"../home/user/config"⟩ →
      sample.save sampleFiles path = .ok written ∧ load written path = .ok { sample with path := path } := by
  intro written path hpath
  have hsave : sample.save sampleFiles path = .ok written := by
    rcases hpath with rfl | rfl
    . rfl
    . rfl
  exact ⟨hsave, ((ofYaml_toYaml_and_load_save sample).2 _ _).2 _ hsave⟩

end Sample

end ClusterRegistration.Kubeconfig
