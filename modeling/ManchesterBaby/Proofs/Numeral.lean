import Mathlib.Data.List.Induction
import ManchesterBaby.Numeral.Writing

/-! Written digits and their reading, in every radix. -/

namespace ManchesterBaby

namespace Radix

theorem one_lt_base (r : Radix) : 1 < r.base := by
  cases r <;> decide

theorem base_le (r : Radix) : r.base ≤ 16 := by
  cases r <;> decide

theorem digit?_digitChar (r : Radix) :
    ∀ d < r.base, digit? r.base (Nat.digitChar d) = some d := by
  cases r <;> decide +kernel

end Radix

variable {r : Radix} {ds : List Nat}

theorem exists_digits (r : Radix) (n : Nat) :
    ∃ ds : List Nat, ds ≠ [] ∧ (∀ d ∈ ds, d < r.base) ∧ ofDigits r.base ds = n ∧
      Nat.toDigits r.base n = ds.map Nat.digitChar := by
  have hb := r.one_lt_base
  induction n using Nat.strongRecOn with
  | ind n ih =>
    by_cases h : n < r.base
    · refine ⟨[n], by simp, by simpa using h, by simp [ofDigits], ?_⟩
      exact Nat.toDigits_of_lt_base h
    · have hle := Nat.le_of_not_lt h
      have hm : n % r.base < r.base := Nat.mod_lt n (by omega)
      obtain ⟨ds, -, hds, hn, ht⟩ := ih (n / r.base) (Nat.div_lt_self (by omega) hb)
      refine ⟨ds ++ [n % r.base], by simp, ?_, ?_, ?_⟩
      · intro d hd
        rcases List.mem_append.mp hd with hd | hd
        · exact hds d hd
        · rw [List.mem_singleton.mp hd]
          exact hm
      · rw [ofDigits, List.foldl_append]
        change ofDigits r.base ds * r.base + n % r.base = n
        rw [hn, Nat.div_add_mod']
      · rw [Nat.toDigits_of_base_le hb hle, ht, List.map_append, List.map_singleton]

theorem notMem_toDigits {c : Char} (h : ∀ d < 16, Nat.digitChar d ≠ c) (r : Radix) (n : Nat) :
    c ∉ Nat.toDigits r.base n := by
  obtain ⟨ds, -, hds, -, ht⟩ := exists_digits r n
  rw [ht, List.mem_map]
  rintro ⟨d, hd, he⟩
  exact h d (Nat.lt_of_lt_of_le (hds d hd) r.base_le) he

theorem notMem_minus {c : Char} (h : c ≠ '-') (n : Int) : c ∉ minus n := by
  rw [minus]
  split
  · exact fun hm => h (List.mem_singleton.mp hm)
  · exact List.not_mem_nil

theorem notMem_decimal {c : Char} (h : ∀ d < 16, Nat.digitChar d ≠ c) (hm : c ≠ '-') (n : Int) :
    c ∉ decimal n := fun hc =>
  (List.mem_append.mp hc).elim (notMem_minus hm n) (notMem_toDigits h .decimal n.natAbs)

theorem notMem_hexadecimal {c : Char} (h : ∀ d < 16, Nat.digitChar d ≠ c) (hm : c ≠ '-')
    (hx : c ≠ 'x') (width : Nat) (n : Int) : c ∉ hexadecimal width n := by
  have hz : c ≠ '0' := (h 0 (by decide)).symm
  have hd : c ∉ (hexDigits n.natAbs).leftpad (width - 2 - (minus n).length) '0' := by
    rw [hexDigits_eq, List.leftpad, List.mem_append]
    rintro (hc | hc)
    · exact hz (List.eq_of_mem_replicate hc)
    · exact notMem_toDigits h .hex n.natAbs hc
  rw [hexadecimal, List.mem_append]
  rintro (hc | hc)
  · exact notMem_minus hm n hc
  · exact List.not_mem_cons_of_ne_of_not_mem hz (List.not_mem_cons_of_ne_of_not_mem hx hd) hc

theorem ofDigits_lt {base : Nat} (h : ∀ d ∈ ds, d < base) :
    ofDigits base ds < Nat.pow base ds.length := by
  induction ds using List.reverseRecOn with
  | nil => exact Nat.zero_lt_one
  | append_singleton ds d ih =>
    have hd : d < base := h d (by simp)
    have hn := ih fun e he => h e (List.mem_append_left _ he)
    rw [ofDigits, List.foldl_append, List.length_append]
    change ofDigits base ds * base + d < base ^ (ds.length + 1)
    calc ofDigits base ds * base + d < (ofDigits base ds + 1) * base := by
          rw [Nat.add_mul, Nat.one_mul]
          omega
      _ ≤ base ^ ds.length * base := Nat.mul_le_mul_right base hn
      _ = base ^ (ds.length + 1) := (Nat.pow_succ ..).symm

theorem groupedDigits?_lt {base : Nat} {t : Text} (h : groupedDigits? base t = some ds) :
    ∀ d ∈ ds, d < base := by
  have hlt : ∀ {c : Char} {d : Nat}, digit? base c = some d → d < base := fun hd =>
    of_decide_eq_true (Option.filter_eq_some_iff.mp hd).2
  fun_induction groupedDigits? base t generalizing ds with
  | case1 => cases h
  | case2 c =>
    obtain ⟨d, hd, rfl⟩ := Option.map_eq_some_iff.mp h
    simpa using hlt hd
  | case3 c rest ih =>
    obtain ⟨d, hd, es, hes, he⟩ : ∃ d, digit? base c = some d ∧
        ∃ es, groupedDigits? base rest = some es ∧ d :: es = ds := by
      simpa [Option.bind_eq_some_iff] using h
    subst he
    exact List.forall_mem_cons.mpr ⟨hlt hd, ih hes⟩
  | case4 c rest _ _ ih =>
    obtain ⟨d, hd, es, hes, he⟩ : ∃ d, digit? base c = some d ∧
        ∃ es, groupedDigits? base rest = some es ∧ d :: es = ds := by
      simpa [Option.bind_eq_some_iff] using h
    subst he
    exact List.forall_mem_cons.mpr ⟨hlt hd, ih hes⟩

/-- A decimal number that is read can be written. -/
theorem fitsDecimal_of_readInteger? {t : Text} {n : Int} (h : readInteger? t = some n) :
    fitsDecimal n = true := by
  obtain ⟨m, hm, rfl⟩ := Option.map_eq_some_iff.mp h
  obtain ⟨digits, hg, hn⟩ := Option.bind_eq_some_iff.mp hm
  rw [number?] at hn
  split at hn
  · cases hn
  · next hl =>
    obtain rfl := Option.some.inj hn
    rw [Bool.or_eq_true, not_or, Bool.not_eq_true', Bool.not_eq_false] at hl
    have hlength : digits.length ≤ decimalLimit := by simpa [withinLimit] using hl.2
    have hlt := ofDigits_lt (groupedDigits?_lt hg)
    have hs : ∀ (b : Bool) (k : Nat), (signed b k).natAbs = k := by
      intro b k
      cases b <;> simp [signed]
    rw [fitsDecimal, decide_eq_true_iff, hs]
    generalize decimalLimit = k at hlength ⊢
    exact Nat.lt_of_lt_of_le hlt (Nat.pow_le_pow_right (by decide) hlength)

end ManchesterBaby
