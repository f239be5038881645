import ManchesterBaby.WordFormat

/-! The instruction set and its codec. Decoding takes both 001 and 101 for a subtraction, and
encoding always gives 001; the bits between opcode and address are not looked at and are written
as zeros. -/

namespace ManchesterBaby

abbrev Address := Fin 32

/-- The low five bits. -/
def Address.ofInt (n : Int) : Address := ⟨(n % 32).toNat, by omega⟩

/-- What a line of a program can be. An absolute value is data and is never decoded. -/
inductive Kind
  | jump
  | relativeJump
  | negate
  | store
  | subtract
  | skipNextIfNegative
  | stop
  | absoluteValue
deriving DecidableEq

namespace Kind

def hasAddress : Kind → Bool
  | jump | relativeJump | negate | store | subtract => true
  | skipNextIfNegative | stop | absoluteValue => false

def ofOpcode? : Nat → Option Kind
  | 0 => some jump
  | 4 => some relativeJump
  | 2 => some negate
  | 6 => some store
  | 1 => some subtract
  | 5 => some subtract
  | 3 => some skipNextIfNegative
  | 7 => some stop
  | _ => none

/-- A number that is no opcode counts as a stop. -/
def ofOpcode (n : Nat) : Kind := (ofOpcode? n).getD stop

def opcode? : Kind → Option Nat
  | jump => some 0
  | relativeJump => some 4
  | negate => some 2
  | store => some 6
  | subtract => some 1
  | skipNextIfNegative => some 3
  | stop => some 7
  | absoluteValue => none

def mnemonic : Kind → Text
  | jump => "JMP".toList
  | relativeJump => "JRP".toList
  | negate => "LDN".toList
  | store => "STO".toList
  | subtract => "SUB".toList
  | skipNextIfNegative => "CMP".toList
  | stop => "STP".toList
  | absoluteValue => "ABS".toList

theorem ofOpcode_of_opcode? {k : Kind} {n : Nat} (h : k.opcode? = some n) : ofOpcode n = k := by
  cases k <;> simp only [opcode?, Option.some.injEq, reduceCtorEq] at h <;> subst h <;> rfl

theorem ofOpcode?_of_lt : ∀ n, n < 8 → ofOpcode? n = some (ofOpcode n) := by decide

theorem opcode?_lt {k : Kind} {n : Nat} (h : k.opcode? = some n) : n < 8 := by
  cases k <;> simp only [opcode?, Option.some.injEq, reduceCtorEq] at h <;> omega

theorem opcode?_isSome {k : Kind} (h : k ≠ absoluteValue) : ∃ n, k.opcode? = some n := by
  cases k <;> simp [opcode?] at h ⊢

def name : Kind → Text
  | jump => "jump".toList
  | relativeJump => "relative jump".toList
  | negate => "negate".toList
  | store => "store".toList
  | subtract => "subtract".toList
  | skipNextIfNegative => "skip next if negative".toList
  | stop => "stop".toList
  | absoluteValue => "absolute value".toList

end Kind

/-- The operand is kept as it was given: any integer may name an address. -/
structure Instruction where
  kind : Kind
  operand : Int
deriving DecidableEq

namespace Instruction

/-- Kinds that take no operand ignore it. -/
def ofOperand (kind : Kind) (operand : Int) : Instruction :=
  ⟨kind, if kind.hasAddress || kind = .absoluteValue then operand else 0⟩

def address (i : Instruction) : Address := if i.kind.hasAddress then .ofInt i.operand else 0

def decode (f : WordFormat) (word : Int) : Instruction :=
  ofOperand (.ofOpcode (f.opcode word)) (f.field word % 32)

def encode (f : WordFormat) (i : Instruction) : Int :=
  match i.kind.opcode? with
  | some opcode => opcode * f.opcodeUnit + i.address
  | none => i.operand

/-- Opcode and address fill the instruction field without a carry between them. -/
theorem field_encode (f : WordFormat) {i : Instruction} {n : Nat} (h : i.kind.opcode? = some n) :
    f.field (i.encode f) = n * f.opcodeUnit + i.address.val := by
  have hu := Nat.le_of_dvd f.opcodeUnit_pos f.dvd_opcodeUnit
  have ha := i.address.isLt
  have hn := Nat.mul_le_mul_right f.opcodeUnit (Nat.le_of_lt_succ (Kind.opcode?_lt h))
  simp only [WordFormat.field, encode, h, f.fieldCount_eq]
  refine Int.emod_eq_of_lt (by omega) ?_
  rw [← Int.natCast_mul]
  omega

theorem opcode_encode (f : WordFormat) {i : Instruction} {n : Nat} (h : i.kind.opcode? = some n) :
    f.opcode (i.encode f) = n := by
  have hu := Nat.le_of_dvd f.opcodeUnit_pos f.dvd_opcodeUnit
  have ha := i.address.isLt
  rw [WordFormat.opcode, field_encode f h, ← Int.natCast_mul, ← Int.natCast_add,
    ← Int.natCast_ediv, Int.toNat_natCast, Nat.add_comm, Nat.add_mul_div_right _ _ f.opcodeUnit_pos,
    Nat.div_eq_of_lt (by omega), Nat.zero_add]

theorem field_encode_emod (f : WordFormat) {i : Instruction} {n : Nat}
    (h : i.kind.opcode? = some n) : f.field (i.encode f) % 32 = i.address.val := by
  obtain ⟨k, hk⟩ := f.dvd_opcodeUnit
  have ha := i.address.isLt
  rw [field_encode f h, hk, ← Int.natCast_mul, Nat.mul_left_comm]
  omega

/-- Decoding gives the kind back and the operand down to its low five bits. -/
theorem decode_encode (f : WordFormat) {i : Instruction} (h : i.kind ≠ .absoluteValue) :
    decode f (i.encode f) = ofOperand i.kind i.address.val := by
  obtain ⟨n, hn⟩ := Kind.opcode?_isSome h
  rw [decode, opcode_encode f hn, field_encode_emod f hn, Kind.ofOpcode_of_opcode? hn]

def mnemonic (i : Instruction) : Text :=
  if i.kind = .absoluteValue then i.kind.mnemonic ++ ' ' :: decimal i.operand
  else if i.kind.hasAddress then i.kind.mnemonic ++ ' ' :: decimal i.address
  else i.kind.mnemonic

def describe (i : Instruction) : Text :=
  if i.kind = .absoluteValue then i.kind.name ++ ' ' :: decimal i.operand
  else i.kind.name ++ " instruction".toList

/-- Neither text holds a number that is too long to be written. -/
def isWritable (i : Instruction) : Bool := i.kind != .absoluteValue || fitsDecimal i.operand

end Instruction

end ManchesterBaby
