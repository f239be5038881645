import Mathlib.Data.Int.Bitwise
import ManchesterBaby.Proofs.Words

/-! Wrapping as an operation on bits, and as arithmetic modulo the number of words. A calculation
may be wrapped after each of its operations or only at its end. -/

namespace ManchesterBaby

theorem ldiff_two_pow_sub_one (k n : Nat) : (2 ^ k - 1).ldiff n = 2 ^ k - (n % 2 ^ k + 1) := by
  apply Nat.eq_of_testBit_eq
  intro i
  rw [Nat.testBit_ldiff, Nat.testBit_two_pow_sub_one,
    Nat.testBit_two_pow_sub_succ (Nat.mod_lt n (Nat.two_pow_pos k)), Nat.testBit_mod_two_pow]
  by_cases h : i < k <;> simp [h]

/-- A mask of low bits keeps what is left modulo a power of two, also of a negative integer. -/
theorem land_two_pow_sub_one (k : Nat) (n : Int) : Int.land n (2 ^ k - 1) = n % 2 ^ k := by
  have hp : ((2 ^ k : Nat) : Int) = 2 ^ k := by norm_cast
  have hm : (2 : Int) ^ k - 1 = ((2 ^ k - 1 : Nat) : Int) := by
    rw [Nat.cast_pred (Nat.two_pow_pos k), hp]
  rw [hm]
  cases n with
  | ofNat n =>
    change ((n &&& (2 ^ k - 1) : Nat) : Int) = (n : Int) % 2 ^ k
    rw [Nat.and_two_pow_sub_one_eq_mod, Int.natCast_emod, hp]
  | negSucc n =>
    change (((2 ^ k - 1).ldiff n : Nat) : Int) = Int.negSucc n % 2 ^ k
    have hlt := Nat.mod_lt n (Nat.two_pow_pos k)
    rw [ldiff_two_pow_sub_one, Int.negSucc_emod _ (hp ▸ Int.natCast_pos.mpr (Nat.two_pow_pos k)),
      Nat.cast_sub hlt, Nat.cast_succ, Int.natCast_emod, hp]
    omega

/-- Of an integer of `k + 1` bits, a mask of the top bit alone leaves nothing just below `2 ^ k`. -/
theorem land_two_pow_eq_zero_iff {k : Nat} {n : Int} (hl : 0 ≤ n) (hu : n < 2 * 2 ^ k) :
    Int.land n (2 ^ k) = 0 ↔ n < 2 ^ k := by
  obtain ⟨m, rfl⟩ := Int.eq_ofNat_of_zero_le hl
  have hp : ((2 ^ k : Nat) : Int) = 2 ^ k := by norm_cast
  rw [← hp] at hu ⊢
  have hm : m < 2 ^ (k + 1) := by
    rw [Nat.pow_succ']
    exact_mod_cast hu
  have ha : Int.land m ((2 ^ k : Nat) : Int) = (((m.testBit k).toNat * 2 ^ k : Nat) : Int) :=
    congrArg _ (Nat.and_two_pow m k)
  rw [ha, Int.natCast_eq_zero, Int.ofNat_lt]
  by_cases h : m < 2 ^ k
  · simp [h, Nat.testBit_lt_two_pow h]
  · have ht := Nat.testBit_of_two_pow_le_and_two_pow_add_one_gt (Nat.le_of_not_lt h) hm
    simp [h, ht]

namespace WordFormat

variable (f : WordFormat)

/-- The low bits are kept, and where the top one of them is set the number of words is taken off. -/
def wrapBits (n : Int) : Int :=
  let kept := Int.land n (2 ^ f.wordBits - 1)
  if Int.land kept (2 ^ (f.wordBits - 1)) = 0 then kept else kept - 2 ^ f.wordBits

theorem wordCount_eq_intPow : (f.wordCount : Int) = 2 ^ f.wordBits := by
  exact_mod_cast f.wordCount_eq_pow

theorem fieldCount_eq_intPow : (f.fieldCount : Int) = 2 ^ f.fieldBits := by
  exact_mod_cast f.fieldCount_eq_pow

theorem toUnsigned_eq_land (n : Int) : f.toUnsigned n = Int.land n (2 ^ f.wordBits - 1) := by
  rw [land_two_pow_sub_one, toUnsigned, wordCount_eq_intPow]

theorem field_eq_land (n : Int) : f.field n = Int.land n (2 ^ f.fieldBits - 1) := by
  rw [land_two_pow_sub_one, field, fieldCount_eq_intPow]

theorem toUnsigned_lt (n : Int) : f.toUnsigned n < f.wordCount :=
  Int.emod_lt_of_pos _ (by have := f.wordCount_pos; omega)

theorem toWord_eq_ite (n : Int) : f.toWord n =
    if f.toUnsigned n < 2 ^ (f.wordBits - 1) then f.toUnsigned n
    else f.toUnsigned n - f.wordCount := by
  have hc := f.wordCount_eq_two_mul
  rw [toWord, Int.bmod_def, toUnsigned]
  split <;> split <;> omega

theorem toWord_eq_wrapBits (n : Int) : f.toWord n = f.wrapBits n := by
  have hl := f.toUnsigned_nonneg n
  have hu := f.toUnsigned_lt n
  rw [f.wordCount_eq_two_mul] at hu
  rw [toWord_eq_ite, wrapBits, ← toUnsigned_eq_land, ← wordCount_eq_intPow]
  exact if_congr (land_two_pow_eq_zero_iff hl hu).symm rfl rfl

theorem toWord_eq_toWord_iff {x y : Int} :
    f.toWord x = f.toWord y ↔ x ≡ y [ZMOD f.wordCount] := by
  constructor
  · intro h
    exact (f.toWord_modEq x).symm.trans (h ▸ f.toWord_modEq y)
  · intro h
    rw [← f.toWord_toUnsigned x, ← f.toWord_toUnsigned y]
    exact congrArg f.toWord h

theorem eq_toWord_iff {n w : Int} :
    w = f.toWord n ↔ w ≡ n [ZMOD f.wordCount] ∧ f.IsWord w := by
  constructor
  · rintro rfl
    exact ⟨f.toWord_modEq n, f.isWord_toWord n⟩
  · rintro ⟨hm, hw⟩
    rw [← toWord_eq_self hw]
    exact f.toWord_eq_toWord_iff.mpr hm

theorem toWord_neg_toWord (x : Int) : f.toWord (-f.toWord x) = f.toWord (-x) :=
  f.toWord_eq_toWord_iff.mpr (f.toWord_modEq x).neg

theorem toWord_sub_toWord (x y : Int) : f.toWord (f.toWord x - f.toWord y) = f.toWord (x - y) :=
  f.toWord_eq_toWord_iff.mpr ((f.toWord_modEq x).sub (f.toWord_modEq y))

end WordFormat

/-- What the machine can work out: it only negates and subtracts. -/
inductive Calculation
  | number (n : Int)
  | negated (c : Calculation)
  | difference (c d : Calculation)

namespace Calculation

def exact : Calculation → Int
  | number n => n
  | negated c => -c.exact
  | difference c d => c.exact - d.exact

/-- The result where every intermediate one is wrapped. -/
def wrapped (f : WordFormat) : Calculation → Int
  | number n => f.toWord n
  | negated c => f.toWord (-c.wrapped f)
  | difference c d => f.toWord (c.wrapped f - d.wrapped f)

theorem wrapped_eq (f : WordFormat) (c : Calculation) : c.wrapped f = f.toWord c.exact := by
  induction c with
  | number n => rfl
  | negated c ih => rw [wrapped, exact, ih, f.toWord_neg_toWord]
  | difference c d ihc ihd => rw [wrapped, exact, ihc, ihd, f.toWord_sub_toWord]

end Calculation

namespace WordFormat

/-- Wrapping is the operation on bits. It picks the one word that agrees with an integer modulo the
number of words, so it goes together with bit patterns, instruction fields and calculations. -/
theorem wrapping_laws (f : WordFormat) (x y : Int) :
    (f.toWord x = f.wrapBits x ∧ f.toUnsigned x = Int.land x (2 ^ f.wordBits - 1) ∧
      f.field x = Int.land x (2 ^ f.fieldBits - 1)) ∧
    (∀ w, w = f.toWord x ↔
      w ≡ x [ZMOD 2 ^ f.wordBits] ∧ -2 ^ (f.wordBits - 1) ≤ w ∧ w < 2 ^ (f.wordBits - 1)) ∧
    (f.toWord x = f.toWord y ↔ x ≡ y [ZMOD 2 ^ f.wordBits]) ∧
    f.toUnsigned (f.toWord x) = f.toUnsigned x ∧ f.toWord (f.toUnsigned x) = f.toWord x ∧
    f.field (f.toWord x) = f.field x ∧
    f.toWord (f.toWord x - f.toWord y) = f.toWord (x - y) ∧
    ∀ c : Calculation, c.wrapped f = f.toWord c.exact := by
  rw [← f.wordCount_eq_intPow]
  exact ⟨⟨f.toWord_eq_wrapBits x, f.wordCount_eq_intPow ▸ f.toUnsigned_eq_land x,
      f.field_eq_land x⟩, fun w => f.eq_toWord_iff, f.toWord_eq_toWord_iff, f.toUnsigned_toWord x,
    f.toWord_toUnsigned x, f.field_toWord x, f.toWord_sub_toWord x y,
    fun c => c.wrapped_eq f⟩

end WordFormat

end ManchesterBaby
