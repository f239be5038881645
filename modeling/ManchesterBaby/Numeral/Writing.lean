import ManchesterBaby.Numeral.Reading

/-! Writing integers in decimal, and in hexadecimal at a least width. -/

namespace ManchesterBaby

def minus (n : Int) : Text := if n < 0 then ['-'] else []

def decimal (n : Int) : Text := minus n ++ Nat.toDigits 10 n.natAbs

/-- The integer is short enough to be written in decimal. -/
def fitsDecimal (n : Int) : Bool := n.natAbs < Nat.pow 10 decimalLimit

theorem fitsDecimal_iff {n : Int} :
    fitsDecimal n ↔ (Nat.toDigits 10 n.natAbs).length ≤ decimalLimit := by
  have h : 0 < decimalLimit := by decide
  rw [fitsDecimal, decide_eq_true_iff]
  generalize decimalLimit = k at h ⊢
  exact (Nat.length_toDigits_le_iff (by decide) h).symm

/-- Hexadecimal digits, found by cutting the number in two so many times over: a long number
would take long digit by digit. The last cut leaves eight digits below. -/
def halvedHexDigits : Nat → Nat → Text
  | 0, n => Nat.toDigits 16 n
  | k + 1, n =>
    let half := Nat.pow 16 (8 <<< k)
    if n < half then halvedHexDigits k n
    else halvedHexDigits k (n / half) ++ (halvedHexDigits k (n % half)).leftpad (8 <<< k) '0'

/-- Cut in two until the pieces have eight digits or fewer. -/
def hexDigits (n : Nat) : Text := halvedHexDigits (n.log2.log2 - 4) n

theorem toDigits_pow_mul_add {q m k : Nat} (hq : 0 < q) (hm : m < Nat.pow 16 (k + 1)) :
    Nat.toDigits 16 (Nat.pow 16 (k + 1) * q + m) =
      Nat.toDigits 16 q ++ (Nat.toDigits 16 m).leftpad (k + 1) '0' := by
  induction k generalizing m with
  | zero =>
    have h : Nat.pow 16 (0 + 1) = 16 := rfl
    rw [h] at *
    rw [← Nat.toDigits_append_toDigits (by decide) hq hm, Nat.toDigits_of_lt_base hm]
    rfl
  | succ k ih =>
    have hp : Nat.pow 16 (k + 1 + 1) = 16 * Nat.pow 16 (k + 1) := Nat.pow_succ' ..
    rw [hp] at hm
    have hd : m / 16 < Nat.pow 16 (k + 1) := Nat.div_lt_of_lt_mul hm
    have hr : m % 16 < 16 := Nat.mod_lt _ (by decide)
    have hs : Nat.pow 16 (k + 1 + 1) * q + m =
        16 * (Nat.pow 16 (k + 1) * q + m / 16) + m % 16 := by
      rw [hp, Nat.mul_add, Nat.mul_assoc]
      omega
    have hpos : 0 < Nat.pow 16 (k + 1) * q + m / 16 :=
      Nat.add_pos_left (Nat.mul_pos (Nat.pow_pos (by decide)) hq) _
    rw [hs, ← Nat.toDigits_append_toDigits (by decide) hpos hr, ih hd, List.append_assoc]
    congr 1
    by_cases h16 : m < 16
    · rw [Nat.div_eq_of_lt h16, Nat.mod_eq_of_lt h16, Nat.toDigits_of_lt_base h16]
      simp [List.leftpad, List.replicate_succ']
    · have hm16 : m = 16 * (m / 16) + m % 16 := by omega
      have hd16 : 0 < m / 16 := by omega
      conv => rhs; rw [hm16, ← Nat.toDigits_append_toDigits (by decide) hd16 hr]
      rw [Nat.toDigits_of_lt_base hr]
      simp [List.leftpad]

theorem halvedHexDigits_eq (k n : Nat) : halvedHexDigits k n = Nat.toDigits 16 n := by
  induction k generalizing n with
  | zero => rfl
  | succ k ih =>
    have hs : 8 <<< k ≠ 0 := by
      rw [Nat.shiftLeft_eq]
      exact Nat.mul_ne_zero (by decide) (Nat.ne_of_gt (Nat.two_pow_pos k))
    obtain ⟨w, hw⟩ := Nat.exists_eq_add_one_of_ne_zero hs
    have hp : 0 < Nat.pow 16 (w + 1) := Nat.pow_pos (by decide)
    simp only [halvedHexDigits, hw, ih]
    split
    · rfl
    · next h =>
      have hq : 0 < n / Nat.pow 16 (w + 1) := Nat.div_pos (Nat.le_of_not_lt h) hp
      rw [← toDigits_pow_mul_add hq (Nat.mod_lt n hp), Nat.div_add_mod]

theorem hexDigits_eq (n : Nat) : hexDigits n = Nat.toDigits 16 n :=
  halvedHexDigits_eq _ n

/-- Hexadecimal with its marker, filled up with zeros to `width` characters in all. The sign
stands before the marker and the zeros after it. -/
def hexadecimal (width : Nat) (n : Int) : Text :=
  let digits := hexDigits n.natAbs
  minus n ++ '0' :: 'x' :: digits.leftpad (width - 2 - (minus n).length) '0'

end ManchesterBaby
