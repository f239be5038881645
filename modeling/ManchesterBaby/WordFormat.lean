import ManchesterBaby.Numeral.Writing

/-! Word formats. A word holds `wordBits` bits and stands for a signed integer; its low
`fieldBits` bits are the instruction field, with the opcode in the top three of them and an
address in the low five. -/

namespace ManchesterBaby

structure WordFormat where
  wordBits : Nat
  fieldBits : Nat
  eight_le_fieldBits : 8 ≤ fieldBits
  fieldBits_le_wordBits : fieldBits ≤ wordBits
deriving DecidableEq

inductive WidthFault
  | narrowField (fieldBits : Int)
  | narrowWord (wordBits fieldBits : Int)
deriving DecidableEq

def WidthFault.text : WidthFault → Text
  | narrowField i =>
    "instruction field must be at least 8 bits wide, got ".toList ++ decimal i
  | narrowWord w i =>
    "word width (".toList ++ decimal w ++
      " bits) is narrower than the instruction field (".toList ++ decimal i ++ " bits)".toList

def WidthFault.widths : WidthFault → List Int
  | narrowField i => [i]
  | narrowWord w i => [w, i]

namespace WordFormat

def standard : WordFormat := ⟨32, 16, by decide, by decide⟩

def ofWidths (wordBits fieldBits : Int) : Except WidthFault WordFormat :=
  if _ : fieldBits < 8 then .error (.narrowField fieldBits)
  else if _ : wordBits < fieldBits then .error (.narrowWord wordBits fieldBits)
  else .ok ⟨wordBits.toNat, fieldBits.toNat, by omega, by omega⟩

def opcodeShift (f : WordFormat) : Nat := f.fieldBits - 3

/-- The number of hexadecimal digits of a whole word. -/
def wordDigits (f : WordFormat) : Nat := (f.wordBits + 3) / 4

def fieldDigits (f : WordFormat) : Nat := (f.fieldBits + 3) / 4

/-- The number of different words. -/
def wordCount (f : WordFormat) : Nat := 1 <<< f.wordBits

def fieldCount (f : WordFormat) : Nat := 1 <<< f.fieldBits

/-- What the lowest bit of the opcode is worth. -/
def opcodeUnit (f : WordFormat) : Nat := 1 <<< f.opcodeShift

/-- The signed integer of a word that agrees with `n` modulo the number of words. -/
def toWord (f : WordFormat) (n : Int) : Int := n.bmod f.wordCount

/-- The bit pattern of a word, as an integer from zero on. -/
def toUnsigned (f : WordFormat) (n : Int) : Int := n % f.wordCount

def field (f : WordFormat) (word : Int) : Int := word % f.fieldCount

def opcode (f : WordFormat) (word : Int) : Nat := (f.field word / f.opcodeUnit).toNat

def hexWord (f : WordFormat) (word : Int) : Text :=
  hexadecimal (f.wordDigits + 2) (f.toUnsigned word)

theorem wordCount_pos (f : WordFormat) : 0 < f.wordCount := by
  rw [wordCount, Nat.one_shiftLeft]
  exact Nat.two_pow_pos _

theorem fieldCount_pos (f : WordFormat) : 0 < f.fieldCount := by
  rw [fieldCount, Nat.one_shiftLeft]
  exact Nat.two_pow_pos _

theorem opcodeUnit_pos (f : WordFormat) : 0 < f.opcodeUnit := by
  rw [opcodeUnit, Nat.one_shiftLeft]
  exact Nat.two_pow_pos _

theorem fieldCount_eq (f : WordFormat) : f.fieldCount = 8 * f.opcodeUnit := by
  have h := f.eight_le_fieldBits
  have hs : f.fieldBits = 3 + f.opcodeShift := by simp only [opcodeShift]; omega
  simp only [fieldCount, opcodeUnit, Nat.one_shiftLeft, hs, Nat.pow_add, Nat.reducePow]

theorem dvd_opcodeUnit (f : WordFormat) : 32 ∣ f.opcodeUnit := by
  have h := f.eight_le_fieldBits
  have hs : f.opcodeShift = 5 + (f.fieldBits - 8) := by simp only [opcodeShift]; omega
  simp only [opcodeUnit, Nat.one_shiftLeft, hs, Nat.pow_add]
  exact Nat.dvd_mul_right _ _

theorem fieldCount_dvd_wordCount (f : WordFormat) : f.fieldCount ∣ f.wordCount := by
  simp only [fieldCount, wordCount, Nat.one_shiftLeft]
  exact Nat.pow_dvd_pow 2 f.fieldBits_le_wordBits

theorem toUnsigned_toWord (f : WordFormat) (n : Int) :
    f.toUnsigned (f.toWord n) = f.toUnsigned n :=
  Int.bmod_emod

theorem toWord_toUnsigned (f : WordFormat) (n : Int) :
    f.toWord (f.toUnsigned n) = f.toWord n :=
  Int.emod_bmod n f.wordCount

/-- Wrapping does not touch the instruction field. -/
theorem field_toWord (f : WordFormat) (n : Int) : f.field (f.toWord n) = f.field n := by
  have h : (f.fieldCount : Int) ∣ f.wordCount :=
    Int.natCast_dvd_natCast.mpr f.fieldCount_dvd_wordCount
  rw [field, field, ← Int.emod_emod_of_dvd _ h, ← Int.emod_emod_of_dvd n h]
  exact congrArg (· % (f.fieldCount : Int)) (f.toUnsigned_toWord n)

theorem field_nonneg (f : WordFormat) (n : Int) : 0 ≤ f.field n :=
  Int.emod_nonneg _ (by have := f.fieldCount_pos; omega)

theorem field_lt (f : WordFormat) (n : Int) : f.field n < f.fieldCount :=
  Int.emod_lt_of_pos _ (by have := f.fieldCount_pos; omega)

theorem opcode_lt (f : WordFormat) (n : Int) : f.opcode n < 8 := by
  have h := f.field_lt n
  have hu := f.opcodeUnit_pos
  rw [f.fieldCount_eq, Int.natCast_mul] at h
  have := Int.ediv_lt_of_lt_mul (show (0 : Int) < f.opcodeUnit by omega) h
  simp only [opcode]
  omega

end WordFormat

end ManchesterBaby
