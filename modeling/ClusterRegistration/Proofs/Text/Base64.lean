import ClusterRegistration.Proofs.Record.Alike
import ClusterRegistration.Proofs.Text.Utf8
import ClusterRegistration.Text.Base64

namespace ClusterRegistration.Text.Base64

open Utf8 (toUInt8_of_eq toNat_toUInt8)

def sextets : List UInt8 → List Nat
  | [] => []
  | [a] => [a.toNat / 4, a.toNat % 4 * 16]
  | [a, b] => [a.toNat / 4, a.toNat % 4 * 16 + b.toNat / 16, b.toNat % 16 * 4]
  | a :: b :: c :: rest =>
    a.toNat / 4 :: (a.toNat % 4 * 16 + b.toNat / 16) :: (b.toNat % 16 * 4 + c.toNat / 64)
      :: (c.toNat % 64) :: sextets rest

def padding : List UInt8 → List UInt8
  | [] => []
  | [_] => [pad, pad]
  | [_, _] => [pad]
  | _ :: _ :: _ :: rest => padding rest

theorem encode_eq (bs : List UInt8) : encode bs = (sextets bs).map symbol ++ padding bs := by
  fun_induction encode bs with
  | case1 => rfl
  | case2 a => rfl
  | case3 a b => rfl
  | case4 a b c rest ih =>
    simp only [sextets, padding, List.map_cons, List.cons_append]
    rw [ih]

theorem lt_of_mem_sextets {bs : List UInt8} : ∀ n ∈ sextets bs, n < 64 := by
  fun_induction sextets bs with
  | case1 => simp
  | case2 a =>
    have ha := a.toNat_lt
    simp only [List.mem_cons, List.not_mem_nil, or_false]
    omega
  | case3 a b =>
    have ha := a.toNat_lt
    have hb := b.toNat_lt
    simp only [List.mem_cons, List.not_mem_nil, or_false]
    omega
  | case4 a b c rest ih =>
    have ha := a.toNat_lt
    have hb := b.toNat_lt
    have hc := c.toNat_lt
    intro n hn
    simp only [List.mem_cons] at hn
    rcases hn with h | h | h | h | h
    . omega
    . omega
    . omega
    . omega
    . exact ih n h

theorem length_sextets (bs : List UInt8) : (sextets bs).length % 4 ≠ 1 := by
  fun_induction sextets bs with
  | case1 => simp
  | case2 a => simp
  | case3 a b => simp
  | case4 a b c rest ih =>
    simp only [List.length_cons]
    omega

theorem padding_eq (bs : List UInt8) :
    padding bs = List.replicate ((4 - (sextets bs).length % 4) % 4) pad := by
  fun_induction padding bs with
  | case1 => rfl
  | case2 a => rfl
  | case3 a b => rfl
  | case4 a b c rest ih =>
    simp only [sextets, List.length_cons]
    rw [ih]
    congr 1
    omega

theorem values_append {ns : List Nat} {tail : List UInt8} (hns : ∀ n ∈ ns, n < 64)
    (htail : ∀ b ∈ tail, b = pad) (offset : Nat) :
    values offset (ns.map symbol ++ tail) = .ok (ns, tail) := by
  induction ns generalizing offset with
  | nil =>
    cases tail with
    | nil => rfl
    | cons b tail =>
      have hb : b = pad := htail b List.mem_cons_self
      simp [values, hb]
  | cons n ns ih =>
    have hn : n < 64 := hns n List.mem_cons_self
    have hns' : ∀ n ∈ ns, n < 64 := fun n hn => hns n (List.mem_cons_of_mem _ hn)
    simp only [List.map_cons, List.cons_append, values]
    rw [value?_symbol n hn, ih hns']
    simp [symbol_ne_pad n hn]

theorem bytes_sextets (bs : List UInt8) (offset : Nat) : bytes offset (sextets bs) = .ok bs := by
  fun_induction sextets bs generalizing offset with
  | case1 => rfl
  | case2 a =>
    have ha := a.toNat_lt
    have hfirst : (a.toNat / 4 * 4 + a.toNat % 4 * 16 / 16).toUInt8 = a := by
      apply toUInt8_of_eq
      omega
    simp only [bytes]
    rw [if_pos (by omega), hfirst]
  | case3 a b =>
    have ha := a.toNat_lt
    have hb := b.toNat_lt
    have hfirst : (a.toNat / 4 * 4 + (a.toNat % 4 * 16 + b.toNat / 16) / 16).toUInt8 = a := by
      apply toUInt8_of_eq
      omega
    have hsecond : ((a.toNat % 4 * 16 + b.toNat / 16) % 16 * 16 + b.toNat % 16 * 4 / 4).toUInt8 = b := by
      apply toUInt8_of_eq
      omega
    simp only [bytes]
    rw [if_pos (by omega), hfirst, hsecond]
  | case4 a b c rest ih =>
    have ha := a.toNat_lt
    have hb := b.toNat_lt
    have hc := c.toNat_lt
    have hfirst : (a.toNat / 4 * 4 + (a.toNat % 4 * 16 + b.toNat / 16) / 16).toUInt8 = a := by
      apply toUInt8_of_eq
      omega
    have hsecond : ((a.toNat % 4 * 16 + b.toNat / 16) % 16 * 16 +
        (b.toNat % 16 * 4 + c.toNat / 64) / 4).toUInt8 = b := by
      apply toUInt8_of_eq
      omega
    have hthird : ((b.toNat % 16 * 4 + c.toNat / 64) % 4 * 64 + c.toNat % 64).toUInt8 = c := by
      apply toUInt8_of_eq
      omega
    simp only [bytes]
    rw [ih, hfirst, hsecond, hthird]

theorem checkLength_of_length {bs : List UInt8} (h : bs.length % 4 ≠ 1) : checkLength bs = .ok () :=
  if_neg h

theorem checkPadding_replicate {offset n : Nat} (h : n ≤ (4 - offset % 4) % 4) (hoffset : offset % 4 ≠ 1) :
    checkPadding offset (List.replicate n pad) = .ok () := by
  cases n with
  | zero => rfl
  | succ n =>
    have hany : (List.replicate (n + 1) pad).any (· != pad) = false := by
      rw [List.any_eq_false]
      intro b hb
      rw [List.eq_of_mem_replicate hb]
      decide
    unfold checkPadding
    rw [List.replicate_succ] at hany ⊢
    dsimp only
    apply if_neg
    rw [hany, List.length_cons, List.length_replicate]
    simp only [Bool.or_false, Bool.or_eq_true, decide_eq_true_eq, not_or]
    omega

theorem decode_sextets (bs : List UInt8) {n : Nat} (h : n ≤ (4 - (sextets bs).length % 4) % 4) :
    decode ((sextets bs).map symbol ++ List.replicate n pad) = .ok bs := by
  have hlength := length_sextets bs
  have hvalues : values 0 ((sextets bs).map symbol ++ List.replicate n pad) =
      .ok (sextets bs, List.replicate n pad) :=
    values_append lt_of_mem_sextets (fun b hb => List.eq_of_mem_replicate hb) 0
  unfold decode
  rw [checkLength_of_length, hvalues]
  . show (do checkPadding (sextets bs).length (List.replicate n pad); bytes 0 (sextets bs)) = .ok bs
    rw [checkPadding_replicate h hlength]
    apply bytes_sextets
  . rw [List.length_append, List.length_map, List.length_replicate]
    omega

theorem decode_encode (bs : List UInt8) : decode (encode bs) = .ok bs := by
  rw [encode_eq, padding_eq]
  exact decode_sextets bs (Nat.le_refl _)

section Soundness

variable {bs out tail : List UInt8} {vs : List Nat}

theorem symbol_of_value? {b : UInt8} {n : Nat} (h : value? b = some n) : symbol n = b ∧ n < 64 := by
  have hall : ∀ m < 256, ∀ n ∈ value? (UInt8.ofNat m), symbol n = UInt8.ofNat m ∧ n < 64 := by
    decide +kernel
  have hb := hall b.toNat b.toNat_lt
  rw [UInt8.ofNat_toNat] at hb
  exact hb n h

theorem eq_of_values {offset : Nat} (h : values offset bs = .ok (vs, tail)) :
    bs = vs.map symbol ++ tail ∧ ∀ n ∈ vs, n < 64 := by
  induction bs generalizing offset vs with
  | nil =>
    cases h
    simp
  | cons b rest ih =>
    rw [values] at h
    split at h
    . cases h
      simp
    . split at h
      . cases h
      . next n hn =>
        obtain ⟨hsymbol, hlt⟩ := symbol_of_value? hn
        cases hrest : values (offset + 1) rest with
        | error e =>
          rw [hrest] at h
          cases h
        | ok p =>
          rw [hrest] at h
          cases h
          obtain ⟨htext, hall⟩ := ih hrest
          refine ⟨?_, List.forall_mem_cons.mpr ⟨hlt, hall⟩⟩
          rw [List.map_cons, List.cons_append, hsymbol, ← htext]

theorem eq_replicate_of_checkPadding {offset : Nat} (h : checkPadding offset tail = .ok ()) :
    tail = List.replicate tail.length pad ∧ tail.length ≤ (4 - offset % 4) % 4 := by
  cases tail with
  | nil => simp
  | cons b tail =>
    unfold checkPadding at h
    dsimp only at h
    split at h
    . cases h
    . next hfits =>
      simp only [Bool.or_eq_true, decide_eq_true_eq, not_or, Bool.not_eq_true, List.any_eq_false,
        bne_iff_ne, ne_eq, Decidable.not_not] at hfits
      refine ⟨List.eq_replicate_iff.mpr ⟨rfl, hfits.1.2⟩, ?_⟩
      have hpositive : 0 < (b :: tail).length := Nat.succ_pos _
      omega

theorem eq_sextets_of_bytes {offset : Nat} (h : bytes offset vs = .ok out) (hvs : ∀ n ∈ vs, n < 64) :
    vs = sextets out := by
  -- The bits that no byte takes up were checked to be zero, so no others are encoded to the same bytes.
  fun_induction bytes offset vs generalizing out with
  | case1 =>
    cases h
    rfl
  | case2 => cases h
  | case3 offset a b hzero =>
    cases h
    have ha : a < 64 := hvs a (by simp)
    have hb : b < 64 := hvs b (by simp)
    have hbyte : (a * 4 + b / 16).toUInt8.toNat = a * 4 + b / 16 := toNat_toUInt8 (by omega)
    simp only [sextets, hbyte]
    congr <;> omega
  | case4 => cases h
  | case5 offset a b c hzero =>
    cases h
    have ha : a < 64 := hvs a (by simp)
    have hb : b < 64 := hvs b (by simp)
    have hc : c < 64 := hvs c (by simp)
    have hfirst : (a * 4 + b / 16).toUInt8.toNat = a * 4 + b / 16 := toNat_toUInt8 (by omega)
    have hsecond : (b % 16 * 16 + c / 4).toUInt8.toNat = b % 16 * 16 + c / 4 := toNat_toUInt8 (by omega)
    simp only [sextets, hfirst, hsecond]
    congr <;> omega
  | case6 => cases h
  | case7 => cases h
  | case8 offset a b c d rest bs hrest ih =>
    cases h
    have ha : a < 64 := hvs a (by simp)
    have hb : b < 64 := hvs b (by simp)
    have hc : c < 64 := hvs c (by simp)
    have hd : d < 64 := hvs d (by simp)
    have hfirst : (a * 4 + b / 16).toUInt8.toNat = a * 4 + b / 16 := toNat_toUInt8 (by omega)
    have hsecond : (b % 16 * 16 + c / 4).toUInt8.toNat = b % 16 * 16 + c / 4 := toNat_toUInt8 (by omega)
    have hthird : (c % 4 * 64 + d).toUInt8.toNat = c % 4 * 64 + d := toNat_toUInt8 (by omega)
    simp only [sextets, hfirst, hsecond, hthird]
    rw [← ih hrest (fun n hn => hvs n (by simp [hn]))]
    congr <;> omega

theorem eq_of_decode (h : decode bs = .ok out) :
    ∃ n ≤ (4 - (sextets out).length % 4) % 4, bs = (sextets out).map symbol ++ List.replicate n pad := by
  unfold decode at h
  obtain ⟨_, -, h⟩ := exists_of_bind_eq_ok h
  obtain ⟨⟨vs, tail⟩, hvalues, h⟩ := exists_of_bind_eq_ok h
  obtain ⟨_, hpadding, hbytes⟩ := exists_of_bind_eq_ok h
  obtain ⟨htext, hvs⟩ := eq_of_values hvalues
  obtain ⟨htail, hlength⟩ := eq_replicate_of_checkPadding hpadding
  rw [← eq_sextets_of_bytes hbytes hvs]
  exact ⟨tail.length, hlength, htail ▸ htext⟩

theorem decode_eq_ok_iff : decode bs = .ok out ↔ ∃ n, bs ++ List.replicate n pad = encode out := by
  rw [encode_eq, padding_eq]
  constructor
  . intro h
    obtain ⟨n, hn, rfl⟩ := eq_of_decode h
    refine ⟨(4 - (sextets out).length % 4) % 4 - n, ?_⟩
    rw [List.append_assoc, List.replicate_append_replicate, Nat.add_sub_cancel' hn]
  . rintro ⟨n, h⟩
    rcases List.append_eq_append_iff.mp h with ⟨cs, hsymbols, hpads⟩ | ⟨cs, rfl, hpads⟩
    . -- No symbol is the padding.
      cases cs with
      | nil =>
        rw [List.append_nil] at hsymbols
        rw [← hsymbols, ← List.append_nil (List.map symbol _)]
        exact decode_sextets out (Nat.zero_le _)
      | cons c cs =>
        have hc : c = pad := List.eq_of_mem_replicate (n := n) (by rw [hpads]; exact List.mem_cons_self)
        have hmem : c ∈ (sextets out).map symbol := hsymbols ▸ List.mem_append_right _ List.mem_cons_self
        obtain ⟨m, hm, rfl⟩ := List.mem_map.mp hmem
        exact absurd hc (symbol_ne_pad m (lt_of_mem_sextets m hm))
    . have hcs : cs = List.replicate cs.length pad := by
        rw [List.eq_replicate_iff]
        exact ⟨rfl, fun c hc => List.eq_of_mem_replicate (hpads ▸ List.mem_append_left _ hc)⟩
      have hlength := congrArg List.length hpads
      rw [List.length_replicate, List.length_append, List.length_replicate] at hlength
      rw [hcs]
      exact decode_sextets out (by omega)

end Soundness

theorem lt_of_mem_encode {bs : List UInt8} : ∀ b ∈ encode bs, b < 0x80 := by
  have hsymbol : ∀ n < 64, symbol n < 0x80 := by
    decide
  intro b hb
  rw [encode_eq, List.mem_append, List.mem_map] at hb
  rcases hb with ⟨n, hn, rfl⟩ | hb
  . exact hsymbol n (lt_of_mem_sextets n hn)
  . rw [padding_eq] at hb
    rw [List.eq_of_mem_replicate hb]
    decide

end ClusterRegistration.Text.Base64
