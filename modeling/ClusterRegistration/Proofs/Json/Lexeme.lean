import ClusterRegistration.Json.Numeral
import ClusterRegistration.Json.Reader
import ClusterRegistration.Proofs.Text.Utf8

namespace ClusterRegistration.Json

open Text.Utf8

abbrev bytesOf (cs : List Char) : List UInt8 :=
  cs.flatMap encodeChar

namespace Reader

def Scans (bs content rest : List UInt8) : Prop :=
  ∀ fuel, bs.length < fuel → scanTextBytes fuel bs = .ok (content, rest)

variable {bs content rest : List UInt8} {b e : UInt8} {c : Char}

namespace Scans

theorem close (rest : List UInt8) : Scans (0x22 :: rest) [] rest := by
  intro fuel h
  obtain ⟨fuel, rfl⟩ : ∃ m, fuel = m + 1 := ⟨fuel - 1, by omega⟩
  rfl

theorem copy (h : Scans bs content rest) (hquote : b ≠ 0x22) (hescape : b ≠ 0x5C)
    (hcontrol : ¬ b < 0x20) : Scans (b :: bs) (b :: content) rest := by
  intro fuel hfuel
  rw [List.length_cons] at hfuel
  obtain ⟨fuel, rfl⟩ : ∃ m, fuel = m + 1 := ⟨fuel - 1, by omega⟩
  unfold scanTextBytes
  rw [if_neg (by simp [hquote]), if_neg (by simp [hescape]), if_neg hcontrol, h fuel (by omega)]
  rfl

theorem escape (h : Scans bs content rest) (he : simpleEscape? e = some b) (hu : e ≠ 0x75) :
    Scans (0x5C :: e :: bs) (b :: content) rest := by
  intro fuel hfuel
  rw [List.length_cons, List.length_cons] at hfuel
  obtain ⟨fuel, rfl⟩ : ∃ m, fuel = m + 1 := ⟨fuel - 1, by omega⟩
  unfold scanTextBytes
  rw [if_neg (by decide), if_pos (by decide)]
  dsimp only
  rw [if_neg (by simp [hu]), he]
  dsimp only
  rw [h fuel (by omega)]
  rfl

theorem unicode {bs' : List UInt8} (h : Scans bs content rest) (hc : scanUnicode bs' = .ok (c, bs))
    (hlength : bs.length ≤ bs'.length) :
    Scans (0x5C :: 0x75 :: bs') (encodeChar c ++ content) rest := by
  intro fuel hfuel
  rw [List.length_cons, List.length_cons] at hfuel
  obtain ⟨fuel, rfl⟩ : ∃ m, fuel = m + 1 := ⟨fuel - 1, by omega⟩
  show (scanUnicode bs' >>= fun p => scanTextBytes fuel p.2 >>= fun q =>
    pure (encodeChar p.1 ++ q.1, q.2)) = _
  rw [hc]
  show (scanTextBytes fuel bs >>= fun q => pure (encodeChar c ++ q.1, q.2)) = _
  rw [h fuel (by omega)]
  rfl

theorem copies (bs' : List UInt8) (h : Scans bs content rest) (hbs' : ∀ b ∈ bs', 0x80 ≤ b.toNat) :
    Scans (bs' ++ bs) (bs' ++ content) rest := by
  induction bs' with
  | nil => exact h
  | cons b bs' ih =>
    have hb := hbs' b List.mem_cons_self
    refine (ih (fun b hb => hbs' b (List.mem_cons_of_mem _ hb))).copy ?_ ?_ ?_
    . rintro rfl
      exact absurd hb (by decide)
    . rintro rfl
      exact absurd hb (by decide)
    . rw [UInt8.lt_iff_toNat_lt]
      exact Nat.not_lt.mpr (Nat.le_trans (by decide) hb)

end Scans

theorem hexValue?_hexDigit : ∀ n < 16, encodeChar (hexDigit n) = [(hexDigit n).toNat.toUInt8] ∧
    hexValue? (hexDigit n).toNat.toUInt8 = some n := by
  decide

def unitBytes (n : Nat) : List UInt8 :=
  [n / 4096 % 16, n / 256 % 16, n / 16 % 16, n % 16].map (fun d => (hexDigit d).toNat.toUInt8)

theorem bytesOf_unitEscape (n : Nat) : bytesOf (unitEscape n) = 0x5C :: 0x75 :: unitBytes n := by
  have h : ∀ m, encodeChar (hexDigit (m % 16)) = [(hexDigit (m % 16)).toNat.toUInt8] :=
    fun m => (hexValue?_hexDigit _ (Nat.mod_lt m (by decide))).1
  simp only [bytesOf, unitEscape, List.flatMap_cons, List.flatMap_nil, h]
  rfl

theorem scanUnit_unitBytes {n : Nat} (h : n < 0x10000) (bs : List UInt8) :
    scanUnit (unitBytes n ++ bs) = .ok (n, bs) := by
  have hvalue : ∀ m, hexValue? (hexDigit (m % 16)).toNat.toUInt8 = some (m % 16) :=
    fun m => (hexValue?_hexDigit _ (Nat.mod_lt m (by decide))).2
  have hsum : n / 4096 % 16 * 4096 + n / 256 % 16 * 256 + n / 16 % 16 * 16 + n % 16 = n := by
    omega
  simp only [unitBytes, List.map_cons, List.map_nil, List.cons_append, List.nil_append, scanUnit,
    hvalue, hsum]

theorem scanUnicode_unitBytes {n : Nat} (h : n < 0xD800) (bs : List UInt8) :
    scanUnicode (unitBytes n ++ bs) = .ok (Char.ofNat n, bs) := by
  have hlow : (decide (0xDC00 ≤ n) && decide (n ≤ 0xDFFF)) = false := by
    simp
    omega
  have hhigh : (decide (0xD800 ≤ n) && decide (n ≤ 0xDBFF)) = false := by
    simp
    omega
  unfold scanUnicode
  rw [scanUnit_unitBytes (by omega)]
  show (if _ then _ else if _ then _ else _) = _
  simp only [hlow, hhigh]
  rfl

theorem toNat_ne {c' : Char} (h : c ≠ c') : c.toNat ≠ c'.toNat := by
  intro heq
  exact h (Char.toNat_inj.mp heq)

theorem Scans.char (c : Char) (h : Scans bs content rest) :
    Scans (bytesOf (escapeChar c) ++ bs) (encodeChar c ++ content) rest := by
  unfold escapeChar
  split
  . exact h.escape (e := 0x22) rfl (by decide)
  . exact h.escape (e := 0x5C) rfl (by decide)
  . exact h.escape (e := 0x6E) rfl (by decide)
  . exact h.escape (e := 0x72) rfl (by decide)
  . exact h.escape (e := 0x74) rfl (by decide)
  . exact h.escape (e := 0x62) rfl (by decide)
  . exact h.escape (e := 0x66) rfl (by decide)
  . next hquote hescape _ _ _ _ _ =>
    split
    . next hcontrol =>
      have hscan := scanUnicode_unitBytes (n := c.toNat) (by omega) bs
      rw [Char.ofNat_toNat] at hscan
      rw [bytesOf_unitEscape]
      exact h.unicode hscan (by simp)
    . next hcontrol =>
      rw [bytesOf, List.flatMap_singleton]
      -- Above ASCII, no byte of a character is a quote, a backslash or a control character.
      by_cases hascii : c.toNat < 0x80
      . have hbyte : c.toNat.toUInt8.toNat = c.toNat := toNat_toUInt8 (by omega)
        rw [encodeChar_of_lt hascii]
        refine h.copy ?_ ?_ ?_
        . intro heq
          rw [heq] at hbyte
          exact toNat_ne hquote hbyte.symm
        . intro heq
          rw [heq] at hbyte
          exact toNat_ne hescape hbyte.symm
        . rw [UInt8.lt_iff_toNat_lt, hbyte]
          exact hcontrol
      . exact h.copies _ (le_of_mem_encodeChar hascii)

theorem Scans.chars (cs : List Char) (h : Scans bs content rest) :
    Scans (bytesOf (cs.flatMap escapeChar) ++ bs) (bytesOf cs ++ content) rest := by
  induction cs with
  | nil => exact h
  | cons c cs ih =>
    have hc := ih.char c
    rw [bytesOf, List.flatMap_cons, List.flatMap_append, List.append_assoc]
    rw [bytesOf, List.flatMap_cons, List.append_assoc]
    exact hc

def textBytes (s : String) : List UInt8 :=
  bytesOf (s.toList.flatMap escapeChar) ++ [0x22]

theorem encode_renderText (s : String) : encode (renderText escapeChar s) = 0x22 :: textBytes s := by
  unfold renderText encode
  rw [String.toList_ofList, List.cons_append, List.flatMap_cons, List.flatMap_append]
  rfl

theorem scanText_textBytes (s : String) (rest : List UInt8) :
    scanText (textBytes s ++ rest) = .ok (s, rest) := by
  have hscans := (Scans.close rest).chars s.toList
  rw [List.append_nil] at hscans
  unfold scanText textBytes
  rw [List.append_assoc, List.singleton_append, hscans _ (Nat.lt_succ_self _)]
  have hdecode : decode? (bytesOf s.toList) = some s := decode?_encode s
  dsimp only [bind, Except.bind]
  rw [hdecode]
  rfl

end Reader

namespace Numeral

def Closed (rest : List UInt8) : Prop :=
  ∀ b ∈ rest.head?, isDigit b = false ∧ b ≠ 46 ∧ isExponentMark b = false

variable {rest : List UInt8} {positive : Bool}

theorem scanTail_of_closed (s : Significand) (h : Closed rest) :
    scanTail positive s 0 rest = .ok (whole positive s.value, rest) := by
  unfold scanTail
  split
  . exact absurd rfl (h 46 rfl).2.1
  . next b rest _ =>
    rw [(h b rfl).2.2]
    rfl
  . rfl

theorem extend_of_le (s : Significand) (ds : List UInt8)
    (h : ds.foldl (fun v d => v * 10 + digit d) s.value ≤ maxSignificand) :
    s.extend ds = ⟨ds.foldl (fun v d => v * 10 + digit d) s.value, s.kept + ds.length⟩ := by
  have hmono : ∀ (ds : List UInt8) (v : Nat), v ≤ ds.foldl (fun v d => v * 10 + digit d) v := by
    intro ds
    induction ds with
    | nil => exact fun v => Nat.le_refl v
    | cons d ds ih => exact fun v => Nat.le_trans (by omega) (ih (v * 10 + digit d))
  induction ds generalizing s with
  | nil => rfl
  | cons d ds ih =>
    have hvalue := Nat.le_trans (hmono ds _) h
    unfold Significand.extend
    rw [if_neg (Nat.not_lt.mpr hvalue), ih _ h]
    simp only [List.foldl_cons, List.length_cons]
    rw [Nat.add_assoc, Nat.add_comm 1]

def digitsOf (n : Nat) : List UInt8 :=
  (Nat.toDigits 10 n).map (fun c => c.toNat.toUInt8)

theorem toNat_of_isDigit {c : Char} (h : c.isDigit = true) : 48 ≤ c.toNat ∧ c.toNat ≤ 57 := by
  unfold Char.isDigit at h
  rw [Bool.and_eq_true, decide_eq_true_eq, decide_eq_true_eq] at h
  exact h

theorem encode_toString (n : Nat) : encode (toString n) = digitsOf n := by
  have hdigits : ∀ cs : List Char, (∀ c ∈ cs, c.isDigit = true) →
      bytesOf cs = cs.map (fun c => c.toNat.toUInt8) := by
    intro cs
    induction cs with
    | nil => exact fun _ => rfl
    | cons c cs ih =>
      intro h
      have hc := (toNat_of_isDigit (h c List.mem_cons_self)).2
      rw [bytesOf, List.flatMap_cons, encodeChar_of_lt (by omega), List.map_cons]
      rw [← ih (fun c hc => h c (List.mem_cons_of_mem _ hc))]
      rfl
  unfold encode digitsOf
  rw [show (toString n).toList = Nat.toDigits 10 n from Nat.toList_repr]
  exact hdigits _ (fun c hc => Nat.isDigit_of_mem_toDigits (by decide) (by decide) hc)

theorem isDigit_of_mem_digitsOf (n : Nat) : ∀ b ∈ digitsOf n, isDigit b = true := by
  intro b hb
  obtain ⟨c, hc, rfl⟩ := List.mem_map.mp hb
  obtain ⟨hlow, hhigh⟩ :=
    toNat_of_isDigit (Nat.isDigit_of_mem_toDigits (by decide) (by decide) hc)
  have hbyte := toNat_toUInt8 (n := c.toNat) (by omega)
  unfold isDigit
  simp only [UInt8.le_iff_toNat_le, Bool.and_eq_true, decide_eq_true_eq, hbyte]
  exact ⟨hlow, hhigh⟩

theorem value_digitsOf (n : Nat) : (digitsOf n).foldl (fun v d => v * 10 + digit d) 0 = n := by
  have hfold : ∀ (cs : List Char) (v : Nat), (∀ c ∈ cs, c.isDigit = true) →
      (cs.map (fun c => c.toNat.toUInt8)).foldl (fun v d => v * 10 + digit d) v =
        Nat.ofDigitChars 10 cs v := by
    intro cs
    induction cs with
    | nil => exact fun _ _ => rfl
    | cons c cs ih =>
      intro v h
      have hc := (toNat_of_isDigit (h c List.mem_cons_self)).2
      have hbyte := toNat_toUInt8 (n := c.toNat) (by omega)
      rw [List.map_cons, List.foldl_cons, ih _ (fun c hc => h c (List.mem_cons_of_mem _ hc))]
      unfold digit
      rw [hbyte, Nat.mul_comm]
      rfl
  unfold digitsOf
  rw [hfold _ 0 (fun c hc => Nat.isDigit_of_mem_toDigits (by decide) (by decide) hc)]
  exact Nat.ofDigitChars_toDigits (by decide) (by decide)

theorem exists_digitsOf (n : Nat) (h : n ≠ 0) : ∃ b bs, digitsOf n = b :: bs ∧ b ≠ 48 := by
  induction n using Nat.strongRecOn with
  | ind n ih =>
    unfold digitsOf
    rw [Nat.toDigits_eq_if (by decide)]
    split
    . next hlt =>
      have hdigit : ∀ n < 10, n ≠ 0 → n.digitChar.toNat.toUInt8 ≠ 48 := by
        decide
      exact ⟨_, [], rfl, hdigit n hlt h⟩
    . next hle =>
      obtain ⟨b, bs, hbs, hb⟩ := ih (n / 10) (by omega) (by omega)
      refine ⟨b, bs ++ [(n % 10).digitChar.toNat.toUInt8], ?_, hb⟩
      rw [List.map_append]
      unfold digitsOf at hbs
      rw [hbs]
      rfl

theorem takeWhile_of_head (h : ∀ b ∈ rest.head?, isDigit b = false) : rest.takeWhile isDigit = [] := by
  cases rest with
  | nil => rfl
  | cons b rest =>
    rw [List.takeWhile_cons, h b rfl]
    rfl

theorem dropWhile_of_head (h : ∀ b ∈ rest.head?, isDigit b = false) : rest.dropWhile isDigit = rest := by
  cases rest with
  | nil => rfl
  | cons b rest =>
    rw [List.dropWhile_cons, h b rfl]
    rfl

theorem scan_digitsOf (positive : Bool) {n : Nat} (h : n ≤ maxSignificand) (hrest : Closed rest) :
    scan positive (digitsOf n ++ rest) = .ok (whole positive n, rest) := by
  have hdigit : ∀ b ∈ rest.head?, isDigit b = false := fun b hb => (hrest b hb).1
  by_cases hn : n = 0
  . subst hn
    cases rest with
    | nil => rfl
    | cons b rest =>
      show (if isDigit b then _ else _) = _
      rw [hdigit b rfl]
      exact scanTail_of_closed ⟨0, 1⟩ hrest
  . obtain ⟨b, bs, hbs, hb⟩ := exists_digitsOf n hn
    have hall := isDigit_of_mem_digitsOf n
    have hextend := extend_of_le ⟨0, 0⟩ (digitsOf n) (by rw [value_digitsOf]; exact h)
    rw [value_digitsOf, Nat.zero_add] at hextend
    have htake : (digitsOf n ++ rest).takeWhile isDigit = digitsOf n := by
      rw [List.takeWhile_append_of_pos hall, takeWhile_of_head hdigit, List.append_nil]
    have hdrop : (digitsOf n ++ rest).dropWhile isDigit = rest := by
      rw [List.dropWhile_append_of_pos hall, dropWhile_of_head hdigit]
    rw [← scanTail_of_closed ⟨n, (digitsOf n).length⟩ hrest]
    rw [hbs] at hall htake hdrop hextend ⊢
    unfold scan
    rw [List.cons_append] at htake hdrop ⊢
    dsimp only
    rw [if_neg (by simp [hb]), if_pos (hall b List.mem_cons_self), htake, hdrop, hextend, Nat.sub_self]

end Numeral

end ClusterRegistration.Json
