import ClusterRegistration.Proofs.Object.Reordering

namespace ClusterRegistration

open Record Json

variable {ν : Type} {m : Type → Type} [Monad m] [ValueSource ν m] (A : Agreement ν m)

theorem LocalReference.read_agrees : A.Agree LocalReference.read LocalReference.read := by
  apply A.record
  . exact .cons (A.required _ _ A.text) .nil
  . simp

theorem OwnerReference.read_agrees : A.Agree OwnerReference.read OwnerReference.read := by
  apply A.record
  . exact .cons (A.required _ _ A.text) <| .cons (A.defaulted _ _ A.flag) <|
      .cons (A.optionally _ _ A.flag) <| .cons (A.required _ _ A.text) <|
      .cons (A.required _ _ A.text) <| .cons (A.required _ _ A.text) .nil
  . simp [Field.required, Field.defaulted, Field.optional, Field.commutes_of_set]

theorem InputMeta.read_agrees : A.Agree InputMeta.read InputMeta.read := by
  apply A.record
  . exact .cons (A.required _ _ A.text) <| .cons (A.required _ _ A.dictionary) <|
      .cons (A.required _ _ A.text) <|
      .cons (A.required _ _ (A.list (OwnerReference.read_agrees A))) <|
      .cons (A.required _ _ (A.list A.text)) <| .cons (A.required _ _ A.dictionary) .nil
  . simp [Field.required, Field.commutes_of_set]

theorem ObjectMeta.read_agrees : A.Agree ObjectMeta.read ObjectMeta.read := by
  apply A.record
  . exact .cons (A.defaulted _ _ A.text) <| .cons (A.defaulted _ _ A.text) <|
      .cons (A.defaulted _ _ A.text) <| .cons (A.defaulted _ _ A.text) <|
      .cons (A.defaulted _ _ (A.optional (A.integer _ _ _))) <| .cons (A.defaulted _ _ A.text) <|
      .cons (A.defaulted _ _ (A.optional A.text)) <| .cons (A.defaulted _ _ A.dictionary) <|
      .cons (A.defaulted _ _ (A.list (OwnerReference.read_agrees A))) <|
      .cons (A.defaulted _ _ A.dictionary) <| .cons (A.defaulted _ _ (A.list A.text)) .nil
  . simp [Field.defaulted, Field.commutes_of_set]

theorem ListMeta.read_agrees : A.Agree ListMeta.read ListMeta.read := by
  apply A.record
  . exact .cons (A.optionally _ _ A.text) <| .cons (A.defaulted _ _ A.text) .nil
  . simp [Field.defaulted, Field.optional, Field.commutes_of_set]

theorem StatusDetails.read_agrees : A.Agree StatusDetails.read StatusDetails.read := by
  apply A.record
  . exact .cons (A.defaulted _ _ A.text) <| .cons (A.defaulted _ _ (A.optional A.text)) <|
      .cons (A.defaulted _ _ A.text) <| .cons (A.defaulted _ _ A.text) .nil
  . simp [Field.defaulted, Field.commutes_of_set]

theorem ApiStatus.read_agrees : A.Agree ApiStatus.read ApiStatus.read := by
  apply A.record
  . exact .cons (A.defaulted _ _ A.text) <| .cons (A.optionally _ _ (A.integer _ _ _)) <|
      .cons (A.optionally _ _ (StatusDetails.read_agrees A)) <| .cons (A.defaulted _ _ A.text) <|
      .cons (A.optionally _ _ A.text) <| .cons (A.optionally _ _ A.text) <|
      .cons (A.required _ _ (A.choice _ _)) .nil
  . simp [Field.required, Field.defaulted, Field.optional, Field.commutes_of_set]

theorem ClientConfigSpec.read_agrees : A.Agree ClientConfigSpec.read ClientConfigSpec.read := by
  apply A.record
  . exact .cons (A.defaulted _ _ A.text) <|
      .cons (A.required _ _ (LocalReference.read_agrees A)) .nil
  . simp [Field.required, Field.defaulted, Field.commutes_of_set]

theorem NodeSpec.read_agrees : A.Agree NodeSpec.read NodeSpec.read := by
  apply A.record
  . exact .cons (A.defaulted _ _ A.flag) .nil
  . simp

theorem StrictNodeSpec.read_agrees : A.Agree StrictNodeSpec.read StrictNodeSpec.read := by
  apply A.record
  . exact .cons (A.required _ _ A.text) .nil
  . simp

theorem WidgetSpec.read_agrees : A.Agree WidgetSpec.read WidgetSpec.read := by
  apply A.record
  . exact .cons (A.defaulted _ _ (A.integer _ _ _)) <| .cons (A.defaulted _ _ (A.list A.text)) .nil
  . simp [Field.defaulted, Field.commutes_of_set]

theorem WidgetStatus.read_agrees : A.Agree WidgetStatus.read WidgetStatus.read := by
  apply A.record
  . exact .cons (A.defaulted _ _ A.text) .nil
  . simp

theorem CredentialStatus.read_agrees : A.Agree CredentialStatus.read CredentialStatus.read := by
  apply A.record
  . exact .cons (A.defaulted _ _ A.text) <| .cons (A.defaulted _ _ A.text) .nil
  . simp [Field.defaulted, Field.commutes_of_set]

theorem SecretHeader.read_agrees : A.Agree SecretHeader.read SecretHeader.read := by
  apply A.record
  . exact .cons (A.defaulted _ _ A.dictionary) <| .cons (A.defaulted _ _ A.text) .nil
  . simp [Field.defaulted, Field.commutes_of_set]

theorem ServiceAccountHeader.read_agrees :
    A.Agree ServiceAccountHeader.read ServiceAccountHeader.read := by
  apply A.record
  . exact .cons (A.defaulted _ _ (A.list (LocalReference.read_agrees A))) .nil
  . simp

namespace Kind

theorem readSpec_agrees (k : Kind) : A.Agree k.readSpec k.readSpec := by
  cases k with
  | serviceAccount | secret | execCredential => exact A.record _ _ .nil .nil
  | clientConfig => exact ClientConfigSpec.read_agrees A
  | node => exact NodeSpec.read_agrees A
  | strictNode => exact StrictNodeSpec.read_agrees A
  | widget => exact WidgetSpec.read_agrees A

theorem readHeader_agrees (k : Kind) : A.Agree k.readHeader k.readHeader := by
  cases k with
  | serviceAccount => exact ServiceAccountHeader.read_agrees A
  | secret => exact SecretHeader.read_agrees A
  | execCredential | clientConfig | node | strictNode | widget => exact A.record _ _ .nil .nil

theorem readStatus_agrees (k : Kind) : A.Agree k.readStatus k.readStatus := by
  cases k with
  | execCredential => exact CredentialStatus.read_agrees A
  | widget => exact WidgetStatus.read_agrees A
  | serviceAccount | secret | clientConfig | node | strictNode => exact A.record _ _ .nil .nil

theorem readHeader_permuted (k : Kind) (ms ms' : List (String × Json)) (h : Permuted Same ms ms') :
    Alike Eq (k.readHeader (Item.buffered (.object ms)) : Item.Reader _)
      (k.readHeader (Item.buffered (.object ms')) : Item.Reader _) :=
  (k.readHeader_agrees Agreement.reordering).2 _ _ (.object h)

end Kind

theorem Object.read_agrees (k : Kind) : A.Agree (Object.read k) (Object.read k) := by
  apply A.withHeader "K8Obj" (blank k) (fun ms => k.readHeader (Item.buffered (.object ms)))
    (fun o header => ({ o with header := header } : Object k))
  . exact .cons (A.defaulted _ _ A.text) <| .cons (A.defaulted _ _ A.text) <|
      .cons (A.defaulted _ _ (ObjectMeta.read_agrees A)) <|
      .cons (A.defaulted _ _ (k.readSpec_agrees A)) <|
      .cons (A.defaulted _ _ (k.readStatus_agrees A)) .nil
  . simp [Field.defaulted, Field.commutes_of_set]
  . exact k.readHeader_permuted

theorem ObjectInput.read_agrees (k : Kind) : A.Agree (ObjectInput.read k) (ObjectInput.read k) := by
  apply A.withHeader "K8SpecObj" (default : ObjectInput k) (fun ms => k.readHeader (Item.buffered (.object ms)))
    (fun o header => ({ o with header := header } : ObjectInput k))
  . exact .cons (A.required _ _ A.text) <| .cons (A.required _ _ A.text) <|
      .cons (A.required _ _ (InputMeta.read_agrees A)) <|
      .cons (A.required _ _ (k.readSpec_agrees A)) .nil
  . simp [Field.required, Field.commutes_of_set]
  . exact k.readHeader_permuted

theorem ObjectList.read_agrees (k : Kind) : A.Agree (ObjectList.read k) (ObjectList.read k) := by
  apply A.record
  . exact .cons (A.required _ _ A.text) <| .cons (A.required _ _ A.text) <|
      .cons (A.required _ _ (ListMeta.read_agrees A)) <|
      .cons (A.required _ _ (A.list (Object.read_agrees A k))) .nil
  . simp [Field.required, Field.commutes_of_set]

end ClusterRegistration
