/-!
This module contains the UTF-8 encoding of texts, and its decoding: strict, where one malformed
byte refuses the whole input, and lossy, where every maximal malformed sequence becomes U+FFFD.
-/

namespace ClusterRegistration.Text.Utf8

def encodeChar (c : Char) : List UInt8 :=
  let n := c.toNat
  if n < 0x80 then
    [n.toUInt8]
  else if n < 0x800 then
    [(0xC0 + n / 0x40).toUInt8, (0x80 + n % 0x40).toUInt8]
  else if n < 0x10000 then
    [(0xE0 + n / 0x1000).toUInt8, (0x80 + n / 0x40 % 0x40).toUInt8, (0x80 + n % 0x40).toUInt8]
  else
    [(0xF0 + n / 0x40000).toUInt8, (0x80 + n / 0x1000 % 0x40).toUInt8,
      (0x80 + n / 0x40 % 0x40).toUInt8, (0x80 + n % 0x40).toUInt8]

def encode (s : String) : List UInt8 :=
  s.toList.flatMap encodeChar

inductive Step where
  | char (c : Char) (rest : List UInt8)
  | malformed (length : Nat)
  | done

def isTrail (b : UInt8) : Bool :=
  0x80 ≤ b && b ≤ 0xBF

def isSecond (lead second : UInt8) : Bool :=
  if lead == 0xE0 then 0xA0 ≤ second && second ≤ 0xBF
  else if lead == 0xED then 0x80 ≤ second && second ≤ 0x9F
  else if lead == 0xF0 then 0x90 ≤ second && second ≤ 0xBF
  else if lead == 0xF4 then 0x80 ≤ second && second ≤ 0x8F
  else isTrail second

/--
Read the first character of a byte string. A malformed sequence is the longest prefix that some
character could start with, and at least one byte.
-/
def step : List UInt8 → Step
  | [] => .done
  | a :: rest =>
    if a < 0x80 then
      .char (Char.ofNat a.toNat) rest
    else if 0xC2 ≤ a && a ≤ 0xDF then
      match rest with
      | b :: rest =>
        if isTrail b then
          .char (Char.ofNat ((a.toNat - 0xC0) * 0x40 + (b.toNat - 0x80))) rest
        else
          .malformed 1
      | [] => .malformed 1
    else if 0xE0 ≤ a && a ≤ 0xEF then
      match rest with
      | b :: c :: rest =>
        if !isSecond a b then .malformed 1
        else if !isTrail c then .malformed 2
        else
          .char (Char.ofNat
            ((a.toNat - 0xE0) * 0x1000 + (b.toNat - 0x80) * 0x40 + (c.toNat - 0x80))) rest
      | [b] => if isSecond a b then .malformed 2 else .malformed 1
      | [] => .malformed 1
    else if 0xF0 ≤ a && a ≤ 0xF4 then
      match rest with
      | b :: c :: d :: rest =>
        if !isSecond a b then .malformed 1
        else if !isTrail c then .malformed 2
        else if !isTrail d then .malformed 3
        else
          .char (Char.ofNat
            ((a.toNat - 0xF0) * 0x40000 + (b.toNat - 0x80) * 0x1000 + (c.toNat - 0x80) * 0x40
              + (d.toNat - 0x80))) rest
      | [b, c] =>
        if !isSecond a b then .malformed 1
        else if !isTrail c then .malformed 2
        else .malformed 3
      | [b] => if isSecond a b then .malformed 2 else .malformed 1
      | [] => .malformed 1
    else
      .malformed 1

theorem step_char_lt {bs rest : List UInt8} {c : Char} (h : step bs = .char c rest) :
    rest.length < bs.length := by
  unfold step at h
  repeat' split at h
  all_goals first
    | contradiction
    | (injection h; subst_vars; simp; try omega)

def decodeChars? (bs : List UInt8) : Option (List Char) :=
  match _h : step bs with
  | .done => some []
  | .malformed _ => none
  | .char c rest => (decodeChars? rest).map (c :: ·)
termination_by bs.length
decreasing_by exact step_char_lt _h

def decode? (bs : List UInt8) : Option String :=
  (decodeChars? bs).map String.ofList

def decodeCharsLossy (bs : List UInt8) : List Char :=
  match _h : step bs with
  | .done => []
  | .char c rest => c :: decodeCharsLossy rest
  | .malformed n =>
    match bs with
    | [] => []
    | _ :: rest => '\uFFFD' :: decodeCharsLossy (rest.drop (n - 1))
termination_by bs.length
decreasing_by
  · exact step_char_lt _h
  · simp only [List.length_drop, List.length_cons]
    omega

def decodeLossy (bs : List UInt8) : String :=
  String.ofList (decodeCharsLossy bs)

end ClusterRegistration.Text.Utf8
