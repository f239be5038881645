import Mathlib.Data.List.TakeWhile
import ManchesterBaby.Proofs.Source.Reading

/-! Lines that are read as they stand: tokens with a single space between them, from which reading
cuts nothing and in which it lowers nothing. -/

namespace ManchesterBaby

/-- Neither blank nor the start of a comment, and its own small form. -/
structure IsSolid (c : Char) : Prop where
  not_blank : isBlank c = false
  not_semicolon : c ≠ ';'
  not_sigma : c ≠ 'Σ'
  lowerChar_eq : lowerChar c = [c]

structure IsToken (t : Text) : Prop where
  nonempty : t ≠ []
  solid : ∀ c ∈ t, IsSolid c

inductive IsSpaced : Text → Prop
  | token {t : Text} (h : IsToken t) : IsSpaced t
  | space {t rest : Text} (h : IsToken t) (hr : IsSpaced rest) : IsSpaced (t ++ ' ' :: rest)

def isPlain (c : Char) : Bool :=
  33 ≤ c.toNat && c.toNat < 127 && c != ';' && !(65 ≤ c.toNat && c.toNat ≤ 90)

theorem isSolid_of_isPlain {c : Char} (h : isPlain c = true) : IsSolid c := by
  simp only [isPlain, Bool.and_eq_true, decide_eq_true_eq, bne_iff_ne, Bool.not_eq_true',
    Bool.and_eq_false_iff, decide_eq_false_iff_not] at h
  obtain ⟨⟨⟨hge, hlt⟩, hs⟩, hc⟩ := h
  refine ⟨?_, hs, ?_, lowerChar_of_ascii (by omega) (by omega)⟩
  · simp only [isBlank, Bool.or_eq_false_iff, Bool.and_eq_false_iff, decide_eq_false_iff_not,
      beq_eq_false_iff_ne]
    omega
  · rintro rfl
    revert hlt
    decide

theorem isToken_of_isPlain {t : Text} (h : t ≠ [] ∧ t.all isPlain = true) : IsToken t :=
  ⟨h.1, fun c hc => isSolid_of_isPlain (List.all_eq_true.mp h.2 c hc)⟩

theorem IsToken.cons {c : Char} {t : Text} (hc : isPlain c = true) (h : IsToken t) :
    IsToken (c :: t) :=
  ⟨List.cons_ne_nil c t, List.forall_mem_cons.mpr ⟨isSolid_of_isPlain hc, h.solid⟩⟩

theorem IsToken.append {s t : Text} (hs : IsToken s) (ht : IsToken t) : IsToken (s ++ t) := by
  refine ⟨by simp [hs.nonempty], ?_⟩
  intro c hc
  rcases List.mem_append.mp hc with hc | hc
  · exact hs.solid c hc
  · exact ht.solid c hc

theorem IsToken.space_notMem {t : Text} (h : IsToken t) : ' ' ∉ t := fun hm =>
  Bool.noConfusion (h.solid ' ' hm).not_blank

theorem IsToken.all_isBlank {t : Text} (h : IsToken t) : t.all isBlank = false := by
  obtain ⟨c, hc⟩ := List.exists_mem_of_ne_nil t h.nonempty
  rw [List.all_eq_false]
  exact ⟨c, hc, by simp [(h.solid c hc).not_blank]⟩

namespace IsSpaced

variable {t : Text}

theorem nonempty (h : IsSpaced t) : t ≠ [] := by
  cases h with
  | token ht => exact ht.nonempty
  | space ht hr => simp

theorem solid_or_space (h : IsSpaced t) : ∀ c ∈ t, IsSolid c ∨ c = ' ' := by
  induction h with
  | token ht => exact fun c hc => .inl (ht.solid c hc)
  | space ht hr ih =>
    intro c hc
    rcases List.mem_append.mp hc with hc | hc
    · exact .inl (ht.solid c hc)
    · rcases List.mem_cons.mp hc with rfl | hc
      · exact .inr rfl
      · exact ih c hc

theorem not_blank_head (h : IsSpaced t) : ∀ c ∈ t.head?, isBlank c = false := by
  have hs : ∀ {s : Text}, IsToken s → ∀ c ∈ s.head?, isBlank c = false := fun hs c hc =>
    (hs.solid c (List.mem_of_mem_head? hc)).not_blank
  cases h with
  | token ht => exact hs ht
  | @space s rest ht hr =>
    rw [List.head?_append_of_ne_nil _ ht.nonempty]
    exact hs ht

theorem not_blank_last (h : IsSpaced t) : ∀ c ∈ t.getLast?, isBlank c = false := by
  induction h with
  | token ht => exact fun c hc => (ht.solid c (List.mem_of_mem_getLast? hc)).not_blank
  | @space s rest ht hr ih =>
    rw [List.getLast?_append_of_ne_nil _ (by simp), List.getLast?_cons_of_ne_nil hr.nonempty]
    exact ih

theorem trim (h : IsSpaced t) : t.trim = t :=
  Text.trim_eq_self h.not_blank_head h.not_blank_last

theorem lower (h : IsSpaced t) : t.lower = t := by
  rw [Text.lower_eq_self_iff]
  intro c hc
  rcases h.solid_or_space c hc with hs | rfl
  · exact ⟨hs.not_sigma, hs.lowerChar_eq⟩
  · exact ⟨by decide, lowerChar_of_ascii (by decide) (by decide)⟩

theorem stripComment (h : IsSpaced t) : Statement.stripComment t = t := by
  rw [Statement.stripComment, List.takeWhile_eq_self_iff]
  intro c hc
  rcases h.solid_or_space c hc with hs | rfl
  · simpa using hs.not_semicolon
  · decide

theorem unbroken (h : IsSpaced t) : ∀ c ∈ t, isLineBreak c = false := by
  intro c hc
  rcases h.solid_or_space c hc with hs | rfl
  · have hb := hs.not_blank
    contrapose! hb
    simp only [Bool.not_eq_false] at hb ⊢
    exact isBlank_of_isLineBreak hb
  · decide

theorem withoutFeeds (h : IsSpaced t) : withoutFeeds t = t := withoutFeeds_of_unbroken h.unbroken

theorem firstColumn (h : IsSpaced t) : firstColumn t = 1 := by
  rw [ManchesterBaby.firstColumn, h.stripComment]
  obtain ⟨c, rest, rfl⟩ := List.exists_cons_of_ne_nil h.nonempty
  rw [List.takeWhile_cons_of_neg (by simp [h.not_blank_head c rfl]), List.length_nil]

theorem not_isVoid (h : IsSpaced t) : isVoid t = false := by
  rw [isVoid, h.stripComment]
  cases h with
  | token ht => exact ht.all_isBlank
  | space ht hr => simp [ht.all_isBlank]

end IsSpaced

end ManchesterBaby
