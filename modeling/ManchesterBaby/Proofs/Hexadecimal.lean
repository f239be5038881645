import Mathlib.Algebra.Order.Floor.Div
import Mathlib.GroupTheory.GroupAction.Ring
import ManchesterBaby.Proofs.Source.Value
import ManchesterBaby.Proofs.Words

/-! Hexadecimal numerals of a least width and their reading. The zeros in front change nothing, and
a number below the power of sixteen that the width stands for has exactly as many digits. So a word
is written in as many digits as its bits take up. -/

namespace ManchesterBaby

/-- The digits of a numeral without its marker. -/
def hexDigitsTo (width n : Nat) : Text := (Nat.toDigits 16 n).leftpad width '0'

def isHexDigit (c : Char) : Bool := (digit? 16 c).isSome

variable {r : Radix} {t : Text} {width n : Nat}

theorem hexadecimal_natCast (width n : Nat) :
    hexadecimal (width + 2) n = '0' :: 'x' :: hexDigitsTo width n := by
  have hm : minus (n : Int) = [] := if_neg (by omega)
  rw [hexadecimal, hm, hexDigits_eq]
  rfl

theorem IsNumeral.pad (h : IsNumeral r t n) (hr : r ≠ .decimal) (k : Nat) :
    IsNumeral r (List.replicate k '0' ++ t) n := by
  have hz : IsDigit r '0' 0 := .decimal rfl (Nat.zero_lt_of_lt r.one_lt_base)
  induction k with
  | zero => exact h
  | succ k ih =>
    obtain ⟨ds, hds, hn⟩ := ih.value
    rw [List.replicate_succ, List.cons_append]
    refine ⟨List.cons_ne_nil _ _, fun hd => absurd hd hr, 0 :: ds, .cons hz hds, ?_⟩
    rw [List.reverse_cons, Nat.ofDigits_append_zero, hn]

theorem isNumeral_hexDigitsTo (width n : Nat) : IsNumeral .hex (hexDigitsTo width n) n :=
  (isNumeral_toDigits (r := .hex) nofun).pad (by decide) _

theorem readDigits?_hexDigitsTo (width n : Nat) :
    readDigits? .hex (hexDigitsTo width n) = some n :=
  readDigits?_eq_some_iff.mpr (.inl (isNumeral_hexDigitsTo width n))

theorem readDigits?_hexadecimal (width n : Nat) :
    readDigits? .hex (hexadecimal (width + 2) n) = some n := by
  rw [hexadecimal_natCast]
  exact readDigits?_eq_some_iff.mpr
    (.inr (.mk (by decide) rfl rfl (isNumeral_hexDigitsTo width n)))

theorem isHexDigit_of_mem_hexDigitsTo {c : Char} (h : c ∈ hexDigitsTo width n) :
    isHexDigit c = true := by
  rcases List.mem_append.mp h with h | h
  · rw [List.eq_of_mem_replicate h]
    rfl
  · obtain ⟨ds, -, hds, -, ht⟩ := exists_digits .hex n
    obtain ⟨d, hd, rfl⟩ := List.mem_map.mp (ht ▸ h)
    exact Option.isSome_of_eq_some (Radix.hex.digit?_digitChar d (hds d hd))

theorem length_hexDigitsTo (hw : 0 < width) (h : n < 16 ^ width) :
    (hexDigitsTo width n).length = width := by
  have hl : (Nat.toDigits 16 n).length ≤ width := (Nat.length_toDigits_le_iff (by decide) hw).mpr h
  rw [hexDigitsTo, List.length_leftpad]
  exact max_eq_left hl

theorem length_hexDigitsTo_of_lt_two_pow {bits : Nat} (hb : 0 < bits) (h : n < 2 ^ bits) :
    (hexDigitsTo (bits ⌈/⌉ 4) n).length = bits ⌈/⌉ 4 := by
  have hle : bits ≤ 4 * (bits ⌈/⌉ 4) := (ceilDiv_le_iff_le_mul (by decide)).mp le_rfl
  have hpow : 2 ^ bits ≤ 16 ^ (bits ⌈/⌉ 4) := by
    have h16 : (16 : Nat) = 2 ^ 4 := rfl
    rw [h16, ← pow_mul]
    exact Nat.pow_le_pow_right (by decide) hle
  exact length_hexDigitsTo (by omega) (h.trans_le hpow)

namespace WordFormat

theorem hexWord_eq (f : WordFormat) (word : Int) :
    f.hexWord word = hexadecimal (f.wordDigits + 2) (f.toUnsigned word).toNat := by
  rw [hexWord, Int.toNat_of_nonneg (f.toUnsigned_nonneg word)]

theorem readDigits?_hexWord (f : WordFormat) (word : Int) :
    readDigits? .hex (f.hexWord word) = some (f.toUnsigned word).toNat := by
  rw [hexWord_eq, readDigits?_hexadecimal]

theorem length_wordNumeral (f : WordFormat) (word : Int) :
    (hexDigitsTo f.wordDigits (f.toUnsigned word).toNat).length = f.wordBits ⌈/⌉ 4 := by
  have hb := f.eight_le_wordBits
  have hlt := Int.emod_lt_of_pos word (Int.natCast_pos.mpr f.wordCount_pos)
  have hn := f.toUnsigned_nonneg word
  refine length_hexDigitsTo_of_lt_two_pow (by omega) ?_
  rw [← f.wordCount_eq_pow]
  rw [toUnsigned] at hn ⊢
  omega

theorem length_fieldNumeral (f : WordFormat) (word : Int) :
    (hexDigitsTo f.fieldDigits (f.field word).toNat).length = f.fieldBits ⌈/⌉ 4 := by
  have hb := f.eight_le_fieldBits
  have hlt := f.field_lt word
  have hn := f.field_nonneg word
  refine length_hexDigitsTo_of_lt_two_pow (by omega) ?_
  rw [← f.fieldCount_eq_pow]
  omega

/-- A word comes back from its pattern. -/
theorem toWord_toNat_toUnsigned {f : WordFormat} {n : Int} (h : f.IsWord n) :
    f.toWord (f.toUnsigned n).toNat = n := by
  rw [Int.toNat_of_nonneg (f.toUnsigned_nonneg n), f.toWord_toUnsigned, toWord_eq_self h]

end WordFormat

end ManchesterBaby
