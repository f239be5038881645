import Mathlib.Data.Int.ModEq
import ManchesterBaby.WordFormat

/-! The integers that the words of a format stand for, and the bit patterns of the words. Wrapping
gives the integer of a word that agrees with a given one modulo the number of words, which is the
one that has the same pattern. -/

namespace ManchesterBaby

namespace WordFormat

def IsWord (f : WordFormat) (n : Int) : Prop :=
  -2 ^ (f.wordBits - 1) ≤ n ∧ n < 2 ^ (f.wordBits - 1)

instance (f : WordFormat) (n : Int) : Decidable (f.IsWord n) :=
  inferInstanceAs (Decidable (_ ∧ _))

theorem eight_le_wordBits (f : WordFormat) : 8 ≤ f.wordBits :=
  f.eight_le_fieldBits.trans f.fieldBits_le_wordBits

theorem wordCount_eq_pow (f : WordFormat) : f.wordCount = 2 ^ f.wordBits :=
  Nat.one_shiftLeft _

theorem fieldCount_eq_pow (f : WordFormat) : f.fieldCount = 2 ^ f.fieldBits :=
  Nat.one_shiftLeft _

theorem wordCount_eq_two_mul (f : WordFormat) :
    (f.wordCount : Int) = 2 * 2 ^ (f.wordBits - 1) := by
  have h := f.eight_le_wordBits
  rw [wordCount_eq_pow, ← pow_succ', Nat.sub_add_cancel (by omega)]
  exact_mod_cast rfl

theorem isWord_toWord (f : WordFormat) (n : Int) : f.IsWord (f.toWord n) := by
  have hl := Int.le_bmod (x := n) f.wordCount_pos
  have hu := Int.bmod_lt (x := n) f.wordCount_pos
  have hc := f.wordCount_eq_two_mul
  simp only [IsWord, toWord]
  constructor <;> omega

theorem toWord_eq_self {f : WordFormat} {n : Int} (h : f.IsWord n) : f.toWord n = n := by
  have hc := f.wordCount_eq_two_mul
  obtain ⟨hl, hu⟩ := h
  exact Int.bmod_eq_of_le (by omega) (by omega)

theorem isWord_of_lt (f : WordFormat) {n : Int} (hl : 0 ≤ n) (hu : n < 128) : f.IsWord n := by
  have hp : (128 : Int) ≤ 2 ^ (f.wordBits - 1) := by
    have h := Nat.pow_le_pow_right (n := 2) (by decide) (Nat.sub_le_sub_right f.eight_le_wordBits 1)
    exact_mod_cast h
  exact ⟨by omega, by omega⟩

theorem isWord_zero (f : WordFormat) : f.IsWord 0 := f.isWord_of_lt (by decide) (by decide)

theorem toWord_modEq (f : WordFormat) (n : Int) : f.toWord n ≡ n [ZMOD f.wordCount] :=
  f.toUnsigned_toWord n

def pattern (f : WordFormat) (n : Int) : BitVec f.wordBits :=
  BitVec.ofNat f.wordBits (f.toUnsigned n).toNat

theorem toUnsigned_nonneg (f : WordFormat) (n : Int) : 0 ≤ f.toUnsigned n :=
  Int.emod_nonneg _ (by have := f.wordCount_pos; omega)

theorem pattern_eq_ofInt (f : WordFormat) (n : Int) : f.pattern n = BitVec.ofInt f.wordBits n := by
  have h := f.wordCount_eq_pow
  apply BitVec.eq_of_toNat_eq
  rw [pattern, BitVec.toNat_ofNat, BitVec.toNat_ofInt, toUnsigned, h, Nat.mod_eq_of_lt]
  have hp := f.wordCount_pos
  have := Int.emod_lt_of_pos n (show (0 : Int) < (2 ^ f.wordBits : Nat) by omega)
  omega

theorem toNat_pattern (f : WordFormat) (n : Int) :
    ((f.pattern n).toNat : Int) = f.toUnsigned n := by
  rw [pattern_eq_ofInt, BitVec.toNat_ofInt, toUnsigned, ← f.wordCount_eq_pow]
  exact Int.toNat_of_nonneg (f.toUnsigned_nonneg n)

theorem toInt_pattern (f : WordFormat) (n : Int) : (f.pattern n).toInt = f.toWord n := by
  rw [pattern_eq_ofInt, BitVec.toInt_ofInt, toWord, f.wordCount_eq_pow]

theorem pattern_toWord (f : WordFormat) (n : Int) : f.pattern (f.toWord n) = f.pattern n := by
  rw [pattern, pattern, f.toUnsigned_toWord]

theorem pattern_neg (f : WordFormat) (n : Int) : f.pattern (-n) = -f.pattern n := by
  simp only [pattern_eq_ofInt, BitVec.ofInt_neg]

theorem pattern_sub (f : WordFormat) (m n : Int) :
    f.pattern (m - n) = f.pattern m - f.pattern n := by
  simp only [pattern_eq_ofInt, Int.sub_eq_add_neg, BitVec.ofInt_add, BitVec.ofInt_neg,
    BitVec.sub_eq_add_neg]

theorem msb_pattern {f : WordFormat} {n : Int} (h : f.IsWord n) :
    (f.pattern n).msb = decide (n < 0) := by
  rw [BitVec.msb_eq_toInt, toInt_pattern, toWord_eq_self h]

theorem thirtyTwo_dvd_wordCount (f : WordFormat) : 32 ∣ f.wordCount :=
  (f.dvd_opcodeUnit.mul_left 8).trans (f.fieldCount_eq ▸ f.fieldCount_dvd_wordCount)

theorem toNat_pattern_emod (f : WordFormat) (n : Int) :
    ((f.pattern n).toNat : Int) % 32 = n % 32 := by
  rw [toNat_pattern, toUnsigned]
  exact Int.emod_emod_of_dvd n (by exact_mod_cast f.thirtyTwo_dvd_wordCount)

end WordFormat

end ManchesterBaby
