import ManchesterBaby.Instruction

/-! How much can be held at once. A word format may be as wide as it likes, and nothing is wrong
with it as long as no integer of that width is worked out. What has a representation is the same
everywhere, and what fits into memory is not. -/

namespace ManchesterBaby

inductive SizeFault
  | tooManyDigits
  | noMemory
  | columnTooWide
  | indexTooLarge
deriving DecidableEq

/-- A lack of memory is reported without a word. -/
def SizeFault.text : SizeFault → Text
  | tooManyDigits => "too many digits in integer".toList
  | noMemory => []
  | columnTooWide => "Too many decimal digits in format string".toList
  | indexTooLarge => "cannot fit 'int' into an index-sized integer".toList

/-- The largest exponent of a power of two that has a representation at all. An integer has
fewer than `2305843009213693946` digits of 30 bits. -/
def largestExponent : Nat := 30 * 2305843009213693944

def largestIndex : Nat := 0x7FFFFFFFFFFFFFFF

/-- The memory at hand: the largest exponent of a power of two and the largest length of a text that
fit into it. Without these limits it is never exhausted. -/
structure Memory where
  exponent : Option Nat
  length : Option Nat

namespace Memory

def unlimited : Memory := ⟨none, none⟩

/-- What is in the way of a power of two. -/
def powerFault? (memory : Memory) (exponent : Nat) : Option SizeFault :=
  if largestExponent < exponent then some .tooManyDigits
  else if memory.exponent.all (exponent ≤ ·) then none
  else some .noMemory

/-- What is in the way of a text of the given length, with the fault of a length that is no
index. -/
def lengthFault? (memory : Memory) (length : Int) (noIndex : SizeFault) : Option SizeFault :=
  if largestIndex < length then some noIndex
  else if memory.length.all fun limit => length ≤ limit then none
  else some .noMemory

variable {memory : Memory} {exponent smaller : Nat} {length : Int} {noIndex : SizeFault}

theorem powerFault?_eq_none_iff : memory.powerFault? exponent = none ↔
    exponent ≤ largestExponent ∧ ∀ limit ∈ memory.exponent, exponent ≤ limit := by
  rw [powerFault?]
  by_cases h : largestExponent < exponent
  · rw [if_pos h]
    exact ⟨nofun, fun hle => absurd hle.1 (Nat.not_le_of_lt h)⟩
  · rw [if_neg h]
    have hle : exponent ≤ largestExponent := Nat.le_of_not_lt h
    cases memory.exponent <;> simp [hle]

theorem lengthFault?_eq_none_iff : memory.lengthFault? length noIndex = none ↔
    length ≤ largestIndex ∧ ∀ limit ∈ memory.length, length ≤ limit := by
  rw [lengthFault?]
  by_cases h : largestIndex < length
  · rw [if_pos h]
    exact ⟨nofun, fun hle => absurd hle.1 (Int.not_le.mpr h)⟩
  · rw [if_neg h]
    have hle : length ≤ largestIndex := Int.not_lt.mp h
    cases memory.length <;> simp [hle]

/-- What can be held is held with everything that is smaller. -/
theorem powerFault?_eq_none_of_le (hle : smaller ≤ exponent)
    (h : memory.powerFault? exponent = none) : memory.powerFault? smaller = none := by
  obtain ⟨hexponent, hlimit⟩ := powerFault?_eq_none_iff.mp h
  exact powerFault?_eq_none_iff.mpr
    ⟨Nat.le_trans hle hexponent, fun limit hm => Nat.le_trans hle (hlimit limit hm)⟩

theorem powerFault?_unlimited : unlimited.powerFault? exponent =
    if largestExponent < exponent then some .tooManyDigits else none := rfl

end Memory

namespace WordFormat

/-- What is in the way of arithmetic on whole words. -/
def wordFault? (memory : Memory) (f : WordFormat) : Option SizeFault :=
  memory.powerFault? f.wordBits

/-- What is in the way of taking instruction fields. -/
def fieldFault? (memory : Memory) (f : WordFormat) : Option SizeFault :=
  memory.powerFault? f.fieldBits

theorem fieldFault?_eq_none {memory : Memory} {f : WordFormat} (h : f.wordFault? memory = none) :
    f.fieldFault? memory = none :=
  Memory.powerFault?_eq_none_of_le f.fieldBits_le_wordBits h

end WordFormat

namespace Instruction

/-- What is in the way of the encoding. An opcode of zero needs no shift, and data none at all. -/
def encodeFault? (memory : Memory) (f : WordFormat) (i : Instruction) : Option SizeFault :=
  if i.kind.opcode?.getD 0 = 0 then none else memory.powerFault? f.opcodeShift

/-- What is in the way of the encoding as a word. -/
def wordFault? (memory : Memory) (f : WordFormat) (i : Instruction) : Option SizeFault :=
  (i.encodeFault? memory f).or (f.wordFault? memory)

end Instruction

end ManchesterBaby
