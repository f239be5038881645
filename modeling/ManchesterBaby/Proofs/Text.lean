import Mathlib.Data.List.Basic
import Mathlib.Data.List.TakeWhile
import ManchesterBaby.Text.Lines
import ManchesterBaby.Text.LowerCase

/-! Texts that lowering leaves as they are, and lines that can be told apart again once they are
joined. -/

namespace ManchesterBaby

theorem isBlank_of_isLineBreak {c : Char} (h : isLineBreak c = true) : isBlank c = true := by
  simp only [isLineBreak, isBlank, Bool.or_eq_true, Bool.and_eq_true, decide_eq_true_eq,
    beq_iff_eq] at h ⊢
  omega

theorem lowerChar_of_ascii {c : Char} (h : c.toNat < 128) (hc : ¬(65 ≤ c.toNat ∧ c.toNat ≤ 90)) :
    lowerChar c = [c] := by
  have hr : ∀ r ∈ caseRuns, 65 ≤ r.first ∧ (r.last ≤ 90 ∨ 128 ≤ r.first) := by decide +kernel
  have hn : caseRuns.find? (·.covers c.toNat) = none := by
    rw [List.find?_eq_none]
    intro r hm
    have hb := hr r hm
    simp only [CaseRun.covers, Bool.and_eq_true, decide_eq_true_eq]
    omega
  have hi : c ≠ 'İ' := by
    rintro rfl
    revert h
    decide
  rw [lowerChar, if_neg hi, hn]

def Unbroken (t : Text) : Prop := ∀ c ∈ t, isLineBreak c = false

instance (t : Text) : Decidable (Unbroken t) :=
  decidable_of_iff (t.all (!isLineBreak ·) = true) (by simp [Unbroken])

theorem Unbroken.append {s t : Text} (hs : Unbroken s) (ht : Unbroken t) : Unbroken (s ++ t) := by
  intro c hc
  rcases List.mem_append.mp hc with hc | hc
  · exact hs c hc
  · exact ht c hc

theorem notMem_intercalate {c : Char} {separator : Text} (hs : c ∉ separator) {ls : List Text}
    (h : ∀ l ∈ ls, c ∉ l) : c ∉ List.intercalate separator ls := by
  induction ls with
  | nil => exact List.not_mem_nil
  | cons l ls ih =>
    obtain ⟨hl, hls⟩ := List.forall_mem_cons.mp h
    cases ls with
    | nil =>
      rw [List.intercalate_singleton]
      exact hl
    | cons m ls =>
      rw [List.intercalate_cons_cons]
      exact List.not_mem_append (List.not_mem_append hl hs) (ih hls)

namespace Text

/-- A text is its own lowered form only if each of its characters is, wherever it stands. -/
theorem lowerAfter_eq_self_iff {before t : Text} :
    lowerAfter before t = t ↔ ∀ c ∈ t, c ≠ 'Σ' ∧ lowerChar c = [c] := by
  induction t generalizing before with
  | nil => simp [lowerAfter]
  | cons c t ih =>
    simp only [lowerAfter, List.forall_mem_cons, ne_eq]
    by_cases hs : c = 'Σ'
    · subst hs
      simp only [if_true, List.singleton_append, List.cons.injEq, not_true_eq_false, false_and,
        iff_false, not_and]
      split <;> simp
    · by_cases hi : c = 'İ'
      · subst hi
        simp [lowerChar]
      · have hd : ∃ d, lowerChar c = [d] := by
          rw [lowerChar, if_neg hi]
          split <;> exact ⟨_, rfl⟩
        obtain ⟨d, hd⟩ := hd
        simp [hs, hd, ih]

theorem lower_eq_self_iff {t : Text} :
    t.lower = t ↔ ∀ c ∈ t, c ≠ 'Σ' ∧ lowerChar c = [c] :=
  lowerAfter_eq_self_iff

theorem dropWhile_ends_eq_self {p : Char → Bool} {t : Text} (hh : ∀ c ∈ t.head?, p c = false)
    (hl : ∀ c ∈ t.getLast?, p c = false) :
    ((t.dropWhile p).reverse.dropWhile p).reverse = t := by
  have hs : t.dropWhile p = t := by
    cases t with
    | nil => rfl
    | cons c t => exact List.dropWhile_cons_of_neg (by simp [hh c rfl])
  rw [hs]
  rw [← List.head?_reverse] at hl
  cases h : t.reverse with
  | nil => simpa using h.symm
  | cons c r =>
    rw [List.dropWhile_cons_of_neg (by simp [hl c, h]), ← h, List.reverse_reverse]

theorem trim_eq_self {t : Text} (hh : ∀ c ∈ t.head?, isBlank c = false)
    (hl : ∀ c ∈ t.getLast?, isBlank c = false) : t.trim = t :=
  dropWhile_ends_eq_self hh hl

theorem trim_eq_nil_iff {t : Text} : t.trim = [] ↔ t.all isBlank = true := by
  rw [trim, trimEnd, List.reverse_eq_nil_iff, List.dropWhile_eq_nil_iff, List.all_eq_true]
  constructor
  · intro h c hc
    rw [← List.takeWhile_append_dropWhile (p := isBlank) (l := t)] at hc
    rcases List.mem_append.mp hc with hc | hc
    · exact List.mem_takeWhile_imp hc
    · exact h c (List.mem_reverse.mpr hc)
  · intro h c hc
    exact h c ((List.dropWhile_sublist _).subset (List.mem_reverse.mp hc))

theorem trimStart_append_left {left : Text} (h : left.all isBlank = true) (t : Text) :
    (left ++ t).trimStart = t.trimStart := by
  rw [trimStart, List.dropWhile_append, List.dropWhile_eq_nil_iff.mpr (List.all_eq_true.mp h)]
  rfl

theorem trimEnd_append_right {right : Text} (h : right.all isBlank = true) (t : Text) :
    (t ++ right).trimEnd = t.trimEnd := by
  have hr : right.reverse.all isBlank = true := by rwa [List.all_reverse]
  rw [trimEnd, List.reverse_append]
  exact congrArg List.reverse (trimStart_append_left hr t.reverse)

theorem trim_margins {left right : Text} (hl : left.all isBlank = true)
    (hr : right.all isBlank = true) (t : Text) : (left ++ (t ++ right)).trim = t.trim := by
  rw [trim, trimStart_append_left hl, trim]
  by_cases ht : t.all isBlank = true
  · have hn : ∀ {s : Text}, s.all isBlank = true → s.trimStart = [] := fun h =>
      List.dropWhile_eq_nil_iff.mpr (List.all_eq_true.mp h)
    rw [hn ht, hn (by rw [List.all_append, ht, hr]; rfl)]
  · have hne : t.dropWhile isBlank ≠ [] := by
      rw [ne_eq, List.dropWhile_eq_nil_iff, ← List.all_eq_true]
      exact ht
    have hs : (t ++ right).trimStart = t.trimStart ++ right := by
      rw [trimStart, List.dropWhile_append, if_neg (by simpa using hne)]
      rfl
    rw [hs, trimEnd_append_right hr]

theorem lines_cons {c : Char} (h : c ≠ '\r') (t : Text) :
    lines (c :: t) = if isLineBreak c then [] :: lines t else consFirst c (lines t) := by
  rw [lines]
  intro rest hc
  exact absurd hc h

theorem lines_cons_of_unbroken {c : Char} (h : isLineBreak c = false) (t : Text) :
    lines (c :: t) = consFirst c (lines t) := by
  have hr : c ≠ '\r' := by
    rintro rfl
    cases h
  simp [lines_cons hr, h]

theorem lines_append_feed {l : Text} (h : ∀ c ∈ l, isLineBreak c = false) (rest : Text) :
    lines (l ++ '\n' :: rest) = l :: lines rest := by
  induction l with
  | nil => exact lines_cons (by decide) rest
  | cons c l ih =>
    obtain ⟨hc, hl⟩ := List.forall_mem_cons.mp h
    rw [List.cons_append, lines_cons_of_unbroken hc, ih hl]
    rfl

theorem lines_eq_singleton {l : Text} (hne : l ≠ []) (h : ∀ c ∈ l, isLineBreak c = false) :
    lines l = [l] := by
  induction l with
  | nil => exact absurd rfl hne
  | cons c l ih =>
    obtain ⟨hc, hl⟩ := List.forall_mem_cons.mp h
    rw [lines_cons_of_unbroken hc]
    by_cases he : l = []
    · rw [he]
      rfl
    · rw [ih he hl]
      rfl

/-- Empty lines are left out here: one at the end would be lost. -/
theorem lines_joinLines {ls : List Text}
    (h : ∀ l ∈ ls, l ≠ [] ∧ ∀ c ∈ l, isLineBreak c = false) : lines (joinLines ls) = ls := by
  induction ls with
  | nil => rfl
  | cons l ls ih =>
    obtain ⟨⟨hne, hl⟩, hls⟩ := List.forall_mem_cons.mp h
    cases ls with
    | nil =>
      rw [joinLines, List.intercalate_singleton]
      exact lines_eq_singleton hne hl
    | cons m ls =>
      rw [joinLines, List.intercalate_cons_cons, List.append_assoc, List.singleton_append,
        lines_append_feed hl]
      exact congrArg (l :: ·) (ih hls)

theorem lines_joinLines_append_feed {ls : List Text} (hne : ls ≠ [])
    (h : ∀ l ∈ ls, ∀ c ∈ l, isLineBreak c = false) : lines (joinLines ls ++ ['\n']) = ls := by
  induction ls with
  | nil => exact absurd rfl hne
  | cons l ls ih =>
    obtain ⟨hl, hls⟩ := List.forall_mem_cons.mp h
    cases ls with
    | nil =>
      rw [joinLines, List.intercalate_singleton, lines_append_feed hl]
      rfl
    | cons m ls =>
      rw [joinLines, List.intercalate_cons_cons, List.append_assoc, List.append_assoc,
        List.singleton_append, lines_append_feed hl]
      exact congrArg (l :: ·) (ih (List.cons_ne_nil m ls) hls)

theorem mem_of_mem_trimEnd {t : Text} {c : Char} (h : c ∈ t.trimEnd) : c ∈ t := by
  rw [trimEnd, List.mem_reverse] at h
  exact List.mem_reverse.mp ((List.dropWhile_sublist _).subset h)

theorem mem_of_mem_trim {t : Text} {c : Char} (h : c ∈ t.trim) : c ∈ t :=
  (List.dropWhile_sublist _).subset (mem_of_mem_trimEnd h)

/-- Trimming stops at the last character that is not blank. -/
theorem trimEnd_append {t : Text} (h : ∃ c ∈ t, isBlank c = false) (before : Text) :
    (before ++ t).trimEnd = before ++ t.trimEnd := by
  obtain ⟨c, hc, hb⟩ := h
  have hne : t.reverse.dropWhile isBlank ≠ [] := by
    intro he
    rw [List.dropWhile_eq_nil_iff] at he
    rw [he c (List.mem_reverse.mpr hc)] at hb
    cases hb
  rw [trimEnd, trimEnd, List.reverse_append, List.dropWhile_append, if_neg (by simpa using hne),
    List.reverse_append, List.reverse_reverse]

end Text

end ManchesterBaby
