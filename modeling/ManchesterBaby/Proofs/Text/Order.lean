import ManchesterBaby.Text.Basic

/-! The dictionary order of texts is a total order. -/

namespace ManchesterBaby

namespace Text

theorem le_total (s t : Text) : s.le t = true ∨ t.le s = true := by
  fun_induction Text.le s t with
  | case1 t => exact .inl rfl
  | case2 c s => exact .inr rfl
  | case3 c s d t ih =>
    simp only [le, Bool.or_eq_true, Bool.and_eq_true, decide_eq_true_eq]
    rcases Nat.lt_trichotomy c.toNat d.toNat with h | h | h
    · exact .inl (.inl h)
    · have he : c = d := Char.toNat_inj.mp h
      rcases ih with hs | ht
      · exact .inl (.inr ⟨he, hs⟩)
      · exact .inr (.inr ⟨he.symm, ht⟩)
    · exact .inr (.inl h)

theorem le_trans {s t u : Text} (hs : s.le t = true) (ht : t.le u = true) : s.le u = true := by
  induction s generalizing t u with
  | nil => rfl
  | cons c s ih =>
    cases t with
    | nil => cases hs
    | cons d t =>
      cases u with
      | nil => cases ht
      | cons e u =>
        simp only [le, Bool.or_eq_true, Bool.and_eq_true, decide_eq_true_eq] at hs ht ⊢
        rcases hs with hs | ⟨rfl, hs⟩ <;> rcases ht with ht | ⟨rfl, ht⟩
        · exact .inl (Nat.lt_trans hs ht)
        · exact .inl hs
        · exact .inl ht
        · exact .inr ⟨rfl, ih hs ht⟩

theorem le_antisymm {s t : Text} (hs : s.le t = true) (ht : t.le s = true) : s = t := by
  induction s generalizing t with
  | nil =>
    cases t with
    | nil => rfl
    | cons d t => cases ht
  | cons c s ih =>
    cases t with
    | nil => cases hs
    | cons d t =>
      simp only [le, Bool.or_eq_true, Bool.and_eq_true, decide_eq_true_eq] at hs ht
      rcases hs with hs | ⟨rfl, hs⟩ <;> rcases ht with ht | ⟨he, ht⟩
      · exact absurd ht (Nat.lt_asymm hs)
      · exact absurd hs (he ▸ Nat.lt_irrefl _)
      · exact absurd ht (Nat.lt_irrefl _)
      · rw [ih hs ht]

end Text

end ManchesterBaby
