import ManchesterBaby.Numeral.Writing

/-! UTF-8. Decoding goes octet by octet and says which octets it could not read and why. -/

namespace ManchesterBaby.Utf8

abbrev Octets := List UInt8

inductive Reason
  | start
  | continuation
  | ending
deriving DecidableEq

/-- The octets from position `first` up to, not including, `stop` are no character. The octet at
`first` is `octet`. -/
structure Fault where
  reason : Reason
  octet : UInt8
  first : Nat
  stop : Nat
deriving DecidableEq

/-- A character that has begun: `code` holds its bits so far, `tails` more octets are due, and
the next of them lies between `low` and `high`. -/
structure Pending where
  octet : UInt8
  first : Nat
  code : Nat
  tails : Nat
  low : Nat
  high : Nat

/-- The character that an octet above 7F begins, if any. Overlong forms, surrogates and numbers
above 10FFFF are ruled out by the range of the second octet. -/
def begin? (pos : Nat) (octet : UInt8) : Option Pending :=
  let n := octet.toNat
  if n < 0xC2 then none
  else if n < 0xE0 then some ⟨octet, pos, n - 0xC0, 1, 0x80, 0xBF⟩
  else if n < 0xF0 then
    let low := if n = 0xE0 then 0xA0 else 0x80
    let high := if n = 0xED then 0x9F else 0xBF
    some ⟨octet, pos, n - 0xE0, 2, low, high⟩
  else if n < 0xF5 then
    let low := if n = 0xF0 then 0x90 else 0x80
    let high := if n = 0xF4 then 0x8F else 0xBF
    some ⟨octet, pos, n - 0xF0, 3, low, high⟩
  else none

def Pending.add (p : Pending) (octet : UInt8) : Pending :=
  ⟨p.octet, p.first, p.code * 0x40 + octet.toNat % 0x40, p.tails - 1, 0x80, 0xBF⟩

def decodeFrom (pos : Nat) (pending : Option Pending) : Octets → Except Fault Text
  | [] =>
    match pending with
    | none => .ok []
    | some p => .error ⟨.ending, p.octet, p.first, pos⟩
  | octet :: rest =>
    match pending with
    | none =>
      if octet.toNat < 0x80 then
        (decodeFrom (pos + 1) none rest).map (Char.ofNat octet.toNat :: ·)
      else
        match begin? pos octet with
        | none => .error ⟨.start, octet, pos, pos + 1⟩
        | some p => decodeFrom (pos + 1) (some p) rest
    | some p =>
      if octet.toNat < p.low || p.high < octet.toNat then
        .error ⟨.continuation, p.octet, p.first, pos⟩
      else if p.tails ≤ 1 then
        (decodeFrom (pos + 1) none rest).map (Char.ofNat (p.add octet).code :: ·)
      else
        decodeFrom (pos + 1) (some (p.add octet)) rest

def decode (octets : Octets) : Except Fault Text := decodeFrom 0 none octets

def encodeChar (c : Char) : Octets :=
  let n := c.toNat
  let tail (bits : Nat) : UInt8 := .ofNat (0x80 + bits % 0x40)
  if n < 0x80 then [.ofNat n]
  else if n < 0x800 then [.ofNat (0xC0 + n / 0x40), tail n]
  else if n < 0x10000 then [.ofNat (0xE0 + n / 0x1000), tail (n / 0x40), tail n]
  else [.ofNat (0xF0 + n / 0x40000), tail (n / 0x1000), tail (n / 0x40), tail n]

def encode (t : Text) : Octets := t.flatMap encodeChar

theorem toNat_octet {n : Nat} (h : n < 256) : (UInt8.ofNat n).toNat = n := by
  simp [Nat.mod_eq_of_lt h]

theorem ofNat_code {c : Char} {n : Nat} (h : n = c.toNat) : Char.ofNat n = c := by
  rw [h, Char.ofNat_toNat]

theorem decodeFrom_tail {pos : Nat} {p : Pending} {b : UInt8} {rest : Octets}
    (hl : p.low ≤ b.toNat) (hh : b.toNat ≤ p.high) (ht : 1 < p.tails) :
    decodeFrom pos (some p) (b :: rest) = decodeFrom (pos + 1) (some (p.add b)) rest := by
  rw [decodeFrom]
  simp [Nat.not_lt.mpr hl, Nat.not_lt.mpr hh, Nat.not_le.mpr ht]

theorem decodeFrom_last {pos : Nat} {p : Pending} {b : UInt8} {rest : Octets}
    (hl : p.low ≤ b.toNat) (hh : b.toNat ≤ p.high) (ht : p.tails ≤ 1) :
    decodeFrom pos (some p) (b :: rest) =
      (decodeFrom (pos + 1) none rest).map (Char.ofNat (p.add b).code :: ·) := by
  rw [decodeFrom]
  simp [Nat.not_lt.mpr hl, Nat.not_lt.mpr hh, ht]

theorem decodeFrom_begin {pos : Nat} {p : Pending} {b : UInt8} {rest : Octets}
    (hb : 0x80 ≤ b.toNat) (h : begin? pos b = some p) :
    decodeFrom pos none (b :: rest) = decodeFrom (pos + 1) (some p) rest := by
  rw [decodeFrom]
  simp [Nat.not_lt.mpr hb, h]

theorem code_bound (c : Char) : c.toNat < 0xD800 ∨ 0xDFFF < c.toNat ∧ c.toNat < 0x110000 := c.valid

theorem decodeFrom_encodeChar (pos : Nat) (c : Char) (rest : Octets) :
    ∃ next, decodeFrom pos none (encodeChar c ++ rest) =
      (decodeFrom next none rest).map (c :: ·) := by
  have hv := code_bound c
  simp only [encodeChar]
  split
  · have h1 := toNat_octet (n := c.toNat) (by omega)
    exact ⟨pos + 1, by simp [decodeFrom, *]⟩
  split
  · have h1 := toNat_octet (n := 0xC0 + c.toNat / 0x40) (by omega)
    have h2 := toNat_octet (n := 0x80 + c.toNat % 0x40) (by omega)
    refine ⟨pos + 2, ?_⟩
    simp only [List.cons_append, List.nil_append]
    rw [decodeFrom_begin (by omega)
        (by simp only [begin?, h1]; rw [if_neg (by omega), if_pos (by omega)]),
      decodeFrom_last (by simp only [h2]; omega) (by simp only [h2]; omega) (by simp),
      ofNat_code (c := c) (by simp only [Pending.add, h2]; omega)]
  split
  · have h1 := toNat_octet (n := 0xE0 + c.toNat / 0x1000) (by omega)
    have h2 := toNat_octet (n := 0x80 + c.toNat / 0x40 % 0x40) (by omega)
    have h3 := toNat_octet (n := 0x80 + c.toNat % 0x40) (by omega)
    refine ⟨pos + 3, ?_⟩
    simp only [List.cons_append, List.nil_append]
    rw [decodeFrom_begin (by omega)
        (by simp only [begin?, h1]; rw [if_neg (by omega), if_neg (by omega), if_pos (by omega)]),
      decodeFrom_tail (by simp only [h2]; split <;> omega) (by simp only [h2]; split <;> omega)
        (by simp),
      decodeFrom_last (by simp only [Pending.add, h3]; omega)
        (by simp only [Pending.add, h3]; omega) (by simp [Pending.add]),
      ofNat_code (c := c) (by simp only [Pending.add, h2, h3]; omega)]
  · have h1 := toNat_octet (n := 0xF0 + c.toNat / 0x40000) (by omega)
    have h2 := toNat_octet (n := 0x80 + c.toNat / 0x1000 % 0x40) (by omega)
    have h3 := toNat_octet (n := 0x80 + c.toNat / 0x40 % 0x40) (by omega)
    have h4 := toNat_octet (n := 0x80 + c.toNat % 0x40) (by omega)
    refine ⟨pos + 4, ?_⟩
    simp only [List.cons_append, List.nil_append]
    rw [decodeFrom_begin (by omega)
        (by simp only [begin?, h1]
            rw [if_neg (by omega), if_neg (by omega), if_neg (by omega), if_pos (by omega)]),
      decodeFrom_tail (by simp only [h2]; split <;> omega) (by simp only [h2]; split <;> omega)
        (by simp),
      decodeFrom_tail (by simp only [Pending.add, h3]; omega)
        (by simp only [Pending.add, h3]; omega) (by simp [Pending.add]),
      decodeFrom_last (by simp only [Pending.add, h4]; omega)
        (by simp only [Pending.add, h4]; omega) (by simp [Pending.add]),
      ofNat_code (c := c) (by simp only [Pending.add, h2, h3, h4]; omega)]

theorem decodeFrom_encode (pos : Nat) (t : Text) : decodeFrom pos none (encode t) = .ok t := by
  induction t generalizing pos with
  | nil => rfl
  | cons c t ih =>
    obtain ⟨next, h⟩ := decodeFrom_encodeChar pos c (encode t)
    rw [encode, List.flatMap_cons, ← encode, h, ih]
    rfl

/-- Every text can be encoded, and is read back as it was. -/
theorem decode_encode (t : Text) : decode (encode t) = .ok t := decodeFrom_encode 0 t

def Reason.text : Reason → Text
  | start => "invalid start byte".toList
  | continuation => "invalid continuation byte".toList
  | ending => "unexpected end of data".toList

def Fault.text (f : Fault) : Text :=
  "'utf-8' codec can't decode ".toList ++
    (if f.stop = f.first + 1 then
      "byte ".toList ++ hexadecimal 4 f.octet.toNat ++ " in position ".toList ++ decimal f.first
    else
      "bytes in position ".toList ++ decimal f.first ++ '-' :: decimal (f.stop - 1)) ++
    ": ".toList ++ f.reason.text

end ManchesterBaby.Utf8
