import Mathlib.Data.Int.ModEq
import ManchesterBaby.Proofs.Codec
import ManchesterBaby.Proofs.Words

/-! The canonical form of an instruction field, which is the one that encoding writes. Decoding
does not tell a field from its canonical form, and encoding what was decoded gives that form. -/

namespace ManchesterBaby

namespace Kind

theorem ofOpcode_ne_absoluteValue : ∀ n < 8, ofOpcode n ≠ absoluteValue := by decide

/-- The two opcodes of a subtraction are the only ones that share their kind. -/
theorem opcode?_ofOpcode : ∀ n < 8, (ofOpcode n).opcode? = some (if n = 5 then 1 else n) := by
  decide

theorem hasAddress_ofOpcode : ∀ n < 8, (ofOpcode n).hasAddress = !(n == 3 || n == 7) := by decide

end Kind

section Layout

variable {n : Nat}

def opcodeBits (field : BitVec n) : BitVec 3 := field.extractLsb' (n - 3) 3

def addressBits (field : BitVec n) : BitVec 5 := field.extractLsb' 0 5

/-- A subtraction has the opcode 001, and nothing stands between opcode and address. An opcode
that takes no address has zeros there too. -/
def canonicalField (field : BitVec n) : BitVec (3 + (n - 8) + 5) :=
  let opcode := opcodeBits field
  (if opcode = 0b101#3 then 0b001#3 else opcode) ++ 0#(n - 8) ++
    if opcode = 0b011#3 ∨ opcode = 0b111#3 then 0#5 else addressBits field

theorem toNat_layout (opcode : BitVec 3) (address : BitVec 5) :
    (opcode ++ 0#n ++ address).toNat = opcode.toNat * 2 ^ (n + 5) + address.toNat := by
  have ha : address.toNat < 2 ^ 5 := address.isLt
  rw [BitVec.toNat_append, BitVec.toNat_append, BitVec.toNat_ofNat, Nat.zero_mod, Nat.or_zero,
    ← Nat.shiftLeft_add, ← Nat.shiftLeft_eq]
  rw [Nat.shiftLeft_add, Nat.shiftLeft_add_eq_or_of_lt ha]

end Layout

namespace WordFormat

variable (f : WordFormat) (word : Int)

def fieldPattern : BitVec f.fieldBits := BitVec.ofInt f.fieldBits word

theorem opcodeUnit_eq_pow : f.opcodeUnit = 2 ^ (f.fieldBits - 8 + 5) := by
  have h := f.eight_le_fieldBits
  have hs : f.opcodeShift = f.fieldBits - 8 + 5 := by
    rw [opcodeShift]
    omega
  rw [opcodeUnit, Nat.one_shiftLeft, hs]

theorem toNat_fieldPattern : (f.fieldPattern word).toNat = (f.field word).toNat := by
  rw [fieldPattern, BitVec.toNat_ofInt, field, f.fieldCount_eq_pow]

theorem toNat_opcodeBits : (opcodeBits (f.fieldPattern word)).toNat = f.opcode word := by
  have hlt : f.opcode word < 2 ^ 3 := f.opcode_lt word
  have hs : 2 ^ (f.fieldBits - 3) = f.opcodeUnit := (Nat.one_shiftLeft _).symm
  have hd : (f.field word).toNat / f.opcodeUnit = f.opcode word := by
    obtain ⟨k, hk⟩ := Int.eq_ofNat_of_zero_le (f.field_nonneg word)
    rw [opcode, hk, ← Int.natCast_ediv, Int.toNat_natCast, Int.toNat_natCast]
  rw [opcodeBits, BitVec.extractLsb'_toNat, toNat_fieldPattern, Nat.shiftRight_eq_div_pow, hs, hd,
    Nat.mod_eq_of_lt hlt]

theorem toNat_addressBits :
    (addressBits (f.fieldPattern word)).toNat = (Address.ofInt word).val := by
  have h := f.field_emod word
  have hn := f.field_nonneg word
  rw [addressBits, BitVec.extractLsb'_toNat, toNat_fieldPattern, Nat.shiftRight_zero]
  simp only [Address.ofInt]
  omega

theorem opcodeBits_eq_iff {k : BitVec 3} :
    opcodeBits (f.fieldPattern word) = k ↔ f.opcode word = k.toNat := by
  rw [← f.toNat_opcodeBits word, BitVec.toNat_inj]

end WordFormat

namespace Instruction

variable (f : WordFormat)

theorem field_encode_eq_self {i : Instruction} (h : i.kind ≠ .absoluteValue) :
    f.field (i.encode f) = i.encode f := by
  obtain ⟨n, hn⟩ := Kind.opcode?_isSome h
  rw [field_encode f hn, encode, hn]

/-- What is kept of an instruction whose operand is cut down to an address. -/
def reduced (i : Instruction) : Instruction :=
  ⟨i.kind, if i.kind = .skipNextIfNegative ∨ i.kind = .stop then 0 else i.operand % 32⟩

theorem decode_encode_eq_reduced {i : Instruction} (h : i.kind ≠ .absoluteValue) :
    decode f (i.encode f) = i.reduced := by
  rw [decode_encode f h]
  obtain ⟨kind, operand⟩ := i
  cases kind <;> simp [ofOperand, reduced, address, Kind.hasAddress, Address.ofInt] at h ⊢ <;> omega

theorem encode_decode (word : Int) :
    (decode f word).encode f = (canonicalField (f.fieldPattern word)).toNat := by
  have hlt := f.opcode_lt word
  have hk := Kind.opcode?_ofOpcode (f.opcode word) hlt
  have ha : (decode f word).address.val =
      if f.opcode word = 3 ∨ f.opcode word = 7 then 0 else (Address.ofInt word).val := by
    rw [address_decode, Kind.hasAddress_ofOpcode _ hlt]
    by_cases h : f.opcode word = 3 ∨ f.opcode word = 7
    · rcases h with h | h <;> simp [h]
    · have hn := not_or.mp h
      simp [hn.1, hn.2]
  have ho : (if opcodeBits (f.fieldPattern word) = 0b101#3 then 0b001#3
      else opcodeBits (f.fieldPattern word)).toNat =
      if f.opcode word = 5 then 1 else f.opcode word := by
    rw [apply_ite BitVec.toNat, f.toNat_opcodeBits]
    exact if_congr (f.opcodeBits_eq_iff word) rfl rfl
  have hb : (if opcodeBits (f.fieldPattern word) = 0b011#3 ∨
        opcodeBits (f.fieldPattern word) = 0b111#3 then 0#5
      else addressBits (f.fieldPattern word)).toNat = (decode f word).address.val := by
    rw [ha, apply_ite BitVec.toNat, f.toNat_addressBits]
    exact if_congr (or_congr (f.opcodeBits_eq_iff word) (f.opcodeBits_eq_iff word)) rfl rfl
  rw [canonicalField, toNat_layout, ho, hb, ← f.opcodeUnit_eq_pow, encode, kind_decode, hk]
  exact_mod_cast rfl

theorem decode_encode_decode (word : Int) :
    decode f ((decode f word).encode f) = decode f word := by
  have hk := Kind.ofOpcode_ne_absoluteValue _ (f.opcode_lt word)
  have h := f.field_emod word
  rw [decode_encode f hk, address_decode, kind_decode]
  by_cases ha : (Kind.ofOpcode (f.opcode word)).hasAddress = true
  · have hv : ((Address.ofInt word).val : Int) = f.field word % 32 := by
      simp only [Address.ofInt]
      omega
    rw [if_pos ha, hv, decode]
  · simp [decode, ofOperand, ha, hk]

/-- Encoding stays inside the instruction field and is undone by decoding, as a word or not. What
decodes from a word encodes to the canonical form of its field, which decodes to the same. -/
theorem codec_canonical :
    (∀ i : Instruction, i.kind ≠ .absoluteValue →
      0 ≤ i.encode f ∧ i.encode f < 2 ^ f.fieldBits ∧ decode f (i.encode f) = i.reduced ∧
        decode f (f.toWord (i.encode f)) = i.reduced) ∧
    (∀ word, (decode f word).kind ≠ .absoluteValue ∧
      (decode f word).encode f = (canonicalField (f.fieldPattern word)).toNat) ∧
    ∀ word, decode f ((decode f word).encode f) = decode f word := by
  refine ⟨fun i h => ?_, fun word => ?_, decode_encode_decode f⟩
  · have hf := field_encode_eq_self f h
    have hl := f.field_nonneg (i.encode f)
    have hu := f.field_lt (i.encode f)
    have hp : (f.fieldCount : Int) = 2 ^ f.fieldBits := by exact_mod_cast f.fieldCount_eq_pow
    rw [hf] at hl hu
    exact ⟨hl, hp ▸ hu, decode_encode_eq_reduced f h,
      (decode_toWord f _).trans (decode_encode_eq_reduced f h)⟩
  · exact ⟨Kind.ofOpcode_ne_absoluteValue _ (f.opcode_lt word), encode_decode f word⟩

/-- Fields of eight bits that fill their words: a negative operand, a subtraction with the other
opcode in a negative word, and a test with an address. -/
theorem codec_canonical_eightBits :
    let f : WordFormat := ⟨8, 8, by decide, by decide⟩
    Kind.subtract ≠ .absoluteValue ∧
      decode f (f.toWord ((⟨.subtract, -1⟩ : Instruction).encode f)) = ⟨.subtract, 31⟩ ∧
      (decode f (-77)).encode f = 0b00110011 ∧ (decode f 0b01110011).encode f = 0b01100000 := by
  intro f
  obtain ⟨ha, hb, -⟩ := codec_canonical f
  have hk : Kind.subtract ≠ .absoluteValue := by decide
  refine ⟨hk, (ha ⟨.subtract, -1⟩ hk).2.2.2, (hb (-77)).2.trans ?_, (hb 0b01110011).2.trans ?_⟩ <;>
    decide +kernel

end Instruction

end ManchesterBaby
