import ClusterRegistration.Kubeconfig.File
import ClusterRegistration.Proofs.Yaml.Bytes
import ClusterRegistration.Proofs.Yaml.Reading

namespace ClusterRegistration

open Yaml Yaml.Reader

section Members

variable {α ρ : Type} {fields : List (Record.Field Location Reader ρ)} {ms : List (String × Json)}
  {g : ρ → ρ} {read : Location → Reader α} {key : String}

theorem fills_optional {write : α → Json} (set : Option α → ρ → ρ) (o : Option α)
    (h : ∀ a, Restores read (write a) a) (hs : Fills fields ms g) :
    Fills (.optional key read set :: fields) (optionalMember key write o ++ ms) (g ∘ fill set o) := by
  cases o with
  | none => exact .absent (by simp [Record.Field.optional]) hs
  | some a =>
    exact @Fills.present ρ (.optional key read set) fields (write a) ms (set (some a)) g (h a).writable
      (delivers_map set (delivers_some (h a))) hs

end Members

theorem ClusterDetail.restores (d : ClusterDetail) : Restores ClusterDetail.read d.toJson d := by
  obtain ⟨insecure, authority, data, server⟩ := d
  unfold toJson
  simp only [List.append_assoc]
  refine restores_record (fills_optional _ _ restores_flag (fills_optional _ _ restores_text
    (fills_optional _ _ restores_text (fills_required _ (restores_text _) .nil)))) ?_ (by decide) (by decide)
  simp only [Function.comp]
  rw [fill_eq insecure rfl, fill_eq authority rfl, fill_eq data rfl]
  rfl

theorem ContextDetail.restores (d : ContextDetail) : Restores ContextDetail.read d.toJson d := by
  obtain ⟨cluster, user, ns⟩ := d
  unfold toJson
  rw [← List.append_nil (optionalMember _ _ _)]
  refine restores_record (fills_required _ (restores_text _) (fills_required _ (restores_text _)
    (fills_optional _ _ restores_text .nil))) ?_ (by decide) (by decide)
  simp only [Function.comp]
  rw [fill_eq ns rfl]
  rfl

theorem ExecCommand.restores (e : ExecCommand) : Restores ExecCommand.read e.toJson e := by
  refine restores_record (fills_required _ (restores_text _) (fills_defaulted _
    (restores_list (fun s _ => restores_text s)) (fills_required _ (restores_text _) .nil))) ?_ (by decide)
    (by decide)
  rfl

theorem UserDetail.restores (d : UserDetail) : Restores UserDetail.read d.toJson d := by
  obtain ⟨certificate, key, certificateData, keyData, exec, token, username, password⟩ := d
  unfold toJson
  simp only [List.append_assoc]
  rw [← List.append_nil (optionalMember "password" _ _)]
  refine restores_record (fills_optional _ _ restores_text (fills_optional _ _ restores_text
    (fills_optional _ _ restores_text (fills_optional _ _ restores_text
    (fills_optional _ _ ExecCommand.restores (fills_optional _ _ restores_text
    (fills_optional _ _ restores_text (fills_optional _ _ restores_text .nil)))))))) ?_ (by decide) (by decide)
  simp only [Function.comp]
  rw [fill_eq certificate rfl, fill_eq key rfl, fill_eq certificateData rfl, fill_eq keyData rfl,
    fill_eq exec rfl, fill_eq token rfl, fill_eq username rfl, fill_eq password rfl]
  rfl

theorem Named.restores {α : Type} [Inhabited α] {record key : String} {read : Location → Reader α}
    {write : α → Json} (hkey : "name" ≠ key) (hkeys : Key key.toList)
    (h : ∀ a, Restores read (write a) a) (n : Named α) :
    Restores (Named.read record key read) (Named.toJson key write n) n := by
  refine restores_record (fills_required _ (restores_text _) (fills_required _ (h _) .nil)) ?_ ?_ ?_
  . rfl
  . simpa [Record.Field.required] using hkey
  . intro k hk
    simp only [Record.Field.required, List.map_cons, List.map_nil, List.mem_cons, List.not_mem_nil,
      or_false] at hk
    rcases hk with rfl | rfl
    . decide
    . exact hkeys

theorem Cluster.restores (c : Cluster) : Restores Cluster.read c.toJson c :=
  Named.restores (by decide) (by decide) ClusterDetail.restores c

theorem Context.restores (c : Context) : Restores Context.read c.toJson c :=
  Named.restores (by decide) (by decide) ContextDetail.restores c

theorem User.restores (u : User) : Restores User.read u.toJson u :=
  Named.restores (by decide) (by decide) UserDetail.restores u

theorem Kubeconfig.restores (c : Kubeconfig) :
    Restores Kubeconfig.read c.toJson { c with path := ⟨""⟩ } := by
  refine restores_record (fills_required _ (restores_text _)
    (fills_defaulted _ (restores_list (fun c _ => Cluster.restores c))
    (fills_defaulted _ (restores_list (fun c _ => Context.restores c))
    (fills_defaulted _ (restores_text _) (fills_required _ (restores_text _)
    (fills_defaulted _ (restores_list (fun u _ => User.restores u)) .nil)))))) ?_ (by decide) (by decide)
  rfl

theorem Kubeconfig.ofYaml_toYaml (c : Kubeconfig) :
    ofYaml (Text.Utf8.encode c.toYaml) = .ok { c with path := ⟨""⟩ } := by
  obtain ⟨hwritable, hdelivers⟩ := Kubeconfig.restores c
  unfold Kubeconfig.toJson at hwritable hdelivers
  have hdecode := decode_render hwritable
  obtain ⟨items, hitems, hdocument⟩ := Document.ofChars_render hwritable
  have hread := hdelivers [] ⟨items, [], none, false⟩ items [] 0 hitems
  rw [List.append_nil] at hread
  have hrun : Reader.run Kubeconfig.read (render c.toJson).toList = .ok { c with path := ⟨""⟩ } := by
    unfold Reader.run Kubeconfig.toJson
    rw [hdocument]
    show (go (Kubeconfig.read []) ⟨items, [], none, false⟩ ⟨items, 0⟩ >>= _) = _
    rw [hread]
    rfl
  unfold ofYaml Yaml.read toYaml Kubeconfig.toJson
  rw [hdecode]
  simp only
  unfold Kubeconfig.toJson at hrun
  rw [hrun]

end ClusterRegistration
