import Mathlib.Data.List.Basic
import ManchesterBaby.Proofs.Text

/-! The lines of a text, and its pieces at a character. A carriage return before a line feed takes
no part in the lines, and lines that are empty aside, they are the pieces between single breaks. So
such lines can be counted part by part wherever a text is cut at a break. -/

namespace ManchesterBaby

namespace Text

theorem pieces_eq_splitOn (c : Char) (t : Text) : pieces c t = t.splitOn c := by
  induction t with
  | nil => rfl
  | cons d t ih =>
    rw [pieces_cons, ih, List.splitOn_cons_eq_if_modifyHead]
    obtain ⟨p, ps, hp⟩ := List.exists_cons_of_ne_nil (List.splitOn_ne_nil c t)
    by_cases h : d = c
    · simp [h]
    · simp [h, hp, consFirst]

theorem notMem_of_mem_pieces {c : Char} {t p : Text} (h : p ∈ pieces c t) : c ∉ p := by
  induction t generalizing p with
  | nil =>
    rw [List.mem_singleton.mp h]
    exact List.not_mem_nil
  | cons d t ih =>
    rw [pieces_cons] at h
    split at h
    · rcases List.mem_cons.mp h with rfl | h
      · exact List.not_mem_nil
      · exact ih h
    · next hd =>
      have hne : pieces c t ≠ [] := pieces_eq_splitOn c t ▸ List.splitOn_ne_nil c t
      obtain ⟨q, qs, hq⟩ := List.exists_cons_of_ne_nil hne
      rw [hq] at h ih
      rcases List.mem_cons.mp h with rfl | h
      · exact List.not_mem_cons_of_ne_of_not_mem (Ne.symm hd) (ih List.mem_cons_self)
      · exact ih (List.mem_cons_of_mem q h)

theorem pieces_joinLines {ls : List Text} (hne : ls ≠ []) (h : ∀ l ∈ ls, '\n' ∉ l) :
    (joinLines ls).pieces '\n' = ls := by
  rw [pieces_eq_splitOn, joinLines]
  exact List.splitOn_intercalate '\n' h hne

theorem mem_consFirst {c : Char} {l : Text} {ls : List Text} (h : l ∈ consFirst c ls) :
    (∃ m, l = c :: m ∧ (m = [] ∨ m ∈ ls)) ∨ l ∈ ls := by
  cases ls with
  | nil => exact .inl ⟨[], List.mem_singleton.mp h, .inl rfl⟩
  | cons m ls =>
    rcases List.mem_cons.mp h with rfl | h
    · exact .inl ⟨m, rfl, .inr List.mem_cons_self⟩
    · exact .inr (List.mem_cons_of_mem m h)

theorem unbroken_of_mem_lines {t l : Text} (h : l ∈ t.lines) : Unbroken l := by
  fun_induction lines t generalizing l with
  | case1 => simp at h
  | case2 rest ih =>
    rcases List.mem_cons.mp h with rfl | h
    · simp [Unbroken]
    · exact ih h
  | case3 c rest hc hb ih =>
    rcases List.mem_cons.mp h with rfl | h
    · simp [Unbroken]
    · exact ih h
  | case4 c rest hc hb ih =>
    have hn : isLineBreak c = false := Bool.eq_false_iff.mpr hb
    rcases mem_consFirst h with ⟨m, rfl, rfl | hm⟩ | h
    · exact List.forall_mem_singleton.mpr hn
    · exact List.forall_mem_cons.mpr ⟨hn, ih hm⟩
    · exact ih h

theorem lines_carriageReturn {t : Text} (h : t.head? ≠ some '\n') :
    lines ('\r' :: t) = [] :: lines t := by
  rw [lines]
  · rfl
  · rintro rest - rfl
    exact h rfl

theorem lines_unifyLineEnds (t : Text) : lines (unifyLineEnds t) = lines t := by
  fun_induction unifyLineEnds t with
  | case1 => rfl
  | case2 rest ih =>
    rw [lines_cons (by decide), ih, lines]
    rfl
  | case3 c rest hc ih =>
    by_cases hr : c = '\r'
    · subst hr
      have hn : rest.head? ≠ some '\n' := by
        cases rest with
        | nil => simp
        | cons d rest =>
          rintro ⟨⟩
          exact hc rest rfl rfl
      rw [if_pos rfl, lines_cons (by decide), ih, lines_carriageReturn hn]
      rfl
    · rw [if_neg hr, lines_cons hr, lines_cons hr, ih]

theorem lines_break {c : Char} (hb : isLineBreak c = true) {t : Text}
    (h : c = '\r' → t.head? ≠ some '\n') : lines (c :: t) = [] :: lines t := by
  by_cases hr : c = '\r'
  · subst hr
    exact lines_carriageReturn (h rfl)
  · rw [lines_cons hr, if_pos hb]

/-- What follows a line feed begins a line. The text before it keeps its lines, with an empty one
more if it has come to its end with a break that the line feed is no part of. -/
theorem exists_lines_append_feed (s : Text) :
    ∃ ls : List Text, ls ≠ [] ∧ (ls = lines s ∨ ls = lines s ++ [[]]) ∧
      ∀ t, lines (s ++ '\n' :: t) = ls ++ lines t := by
  fun_induction lines s with
  | case1 => exact ⟨[[]], by decide, .inr rfl, fun t => lines_cons (by decide) t⟩
  | case2 rest ih =>
    obtain ⟨ls, -, hls, ht⟩ := ih
    refine ⟨[] :: ls, List.cons_ne_nil _ _, hls.imp (congrArg _) (congrArg _), fun t => ?_⟩
    rw [List.cons_append, List.cons_append, lines, ht, List.cons_append]
  | case3 c rest hc hb ih =>
    by_cases hr : c = '\r' ∧ rest = []
    · -- the two characters are one break
      obtain ⟨rfl, rfl⟩ := hr
      exact ⟨[[]], by decide, .inl rfl, fun t => rfl⟩
    · obtain ⟨ls, -, hls, ht⟩ := ih
      refine ⟨[] :: ls, List.cons_ne_nil _ _, hls.imp (congrArg _) (congrArg _), fun t => ?_⟩
      have hh : c = '\r' → (rest ++ '\n' :: t).head? ≠ some '\n' := by
        rintro rfl
        cases rest with
        | nil => exact absurd ⟨rfl, rfl⟩ hr
        | cons d rest =>
          rintro ⟨⟩
          exact hc rest rfl rfl
      rw [List.cons_append, lines_break hb hh, ht, List.cons_append]
  | case4 c rest hc hb ih =>
    obtain ⟨ls, hne, hls, ht⟩ := ih
    obtain ⟨l, ls, rfl⟩ := List.exists_cons_of_ne_nil hne
    have hn : isLineBreak c = false := Bool.eq_false_iff.mpr hb
    refine ⟨(c :: l) :: ls, List.cons_ne_nil _ _, ?_, fun t => ?_⟩
    · rcases hls with hls | hls
      · exact .inl (by rw [← hls, consFirst])
      · cases hl : lines rest with
        | nil =>
          rw [hl] at hls
          cases hls
          exact .inl rfl
        | cons m ms =>
          rw [hl] at hls
          cases hls
          exact .inr rfl
    · rw [List.cons_append, lines_cons_of_unbroken hn, ht]
      rfl

def withCarriageReturns (t : Text) : Text :=
  t.flatMap fun c => if c = '\n' then ['\r', '\n'] else [c]

theorem lines_withCarriageReturns {t : Text} (h : '\r' ∉ t) :
    lines (withCarriageReturns t) = lines t := by
  induction t with
  | nil => rfl
  | cons c t ih =>
    obtain ⟨hc, ht⟩ := not_or.mp (List.mem_cons.not.mp h)
    have hl := ih ht
    by_cases hn : c = '\n'
    · subst hn
      change lines ('\r' :: '\n' :: withCarriageReturns t) = _
      rw [lines, hl, lines_cons (by decide)]
      rfl
    · have he : withCarriageReturns (c :: t) = c :: withCarriageReturns t := by
        simp [withCarriageReturns, hn]
      rw [he, lines_cons (Ne.symm hc), lines_cons (Ne.symm hc), hl]

variable {keep : Text → Bool}

theorem filter_eq_of_headD {ls ms : List Text} (hk : keep [] = false)
    (hh : ls.headD [] = ms.headD []) (ht : ls.tail.filter keep = ms.tail.filter keep) :
    ls.filter keep = ms.filter keep := by
  have hf : ∀ ns : List Text,
      ns.filter keep = [ns.headD []].filter keep ++ ns.tail.filter keep := by
    intro ns
    cases ns with
    | nil => simp [hk]
    | cons n ns => rw [← List.filter_append]; rfl
  rw [hf ls, hf ms, hh, ht]

theorem lines_splitOnP (hk : keep [] = false) (t : Text) :
    t.lines.headD [] = (t.splitOnP isLineBreak).headD [] ∧
      t.lines.tail.filter keep = (t.splitOnP isLineBreak).tail.filter keep := by
  have hb : ∀ {c : Char} {rest : Text}, isLineBreak c = true →
      (c :: rest).splitOnP isLineBreak = [] :: rest.splitOnP isLineBreak := fun h => by
    rw [List.splitOnP_cons_eq_if_modifyHead, if_pos h]
  -- the first line grows at its front, so it is followed apart from those that are kept or not
  fun_induction lines t with
  | case1 => simp
  | case2 rest ih =>
    have hf := filter_eq_of_headD hk ih.1 ih.2
    rw [hb (by decide), hb (by decide)]
    exact ⟨rfl, by simpa [List.filter_cons, hk] using hf⟩
  | case3 c rest hc h ih =>
    rw [hb h]
    exact ⟨rfl, filter_eq_of_headD hk ih.1 ih.2⟩
  | case4 c rest hc h ih =>
    obtain ⟨m, ms, hm⟩ := List.exists_cons_of_ne_nil (List.splitOnP_ne_nil isLineBreak rest)
    rw [List.splitOnP_cons_eq_if_modifyHead, if_neg h, hm]
    rw [hm] at ih
    cases hl : lines rest with
    | nil =>
      rw [hl] at ih
      have he : m = [] := ih.1.symm
      exact ⟨congrArg (c :: ·) he.symm, ih.2⟩
    | cons l ls =>
      rw [hl] at ih
      exact ⟨congrArg (c :: ·) ih.1, ih.2⟩

theorem filter_lines (hk : keep [] = false) (t : Text) :
    t.lines.filter keep = (t.splitOnP isLineBreak).filter keep :=
  filter_eq_of_headD hk (lines_splitOnP hk t).1 (lines_splitOnP hk t).2

theorem filter_lines_break (hk : keep [] = false) {c : Char} (h : isLineBreak c = true)
    (s t : Text) :
    (lines (s ++ c :: t)).filter keep = (lines s).filter keep ++ (lines t).filter keep := by
  rw [filter_lines hk, filter_lines hk, filter_lines hk, List.splitOnP_append_cons s t h,
    List.filter_append]

theorem filter_lines_of_unbroken (hk : keep [] = false) {l : Text} (h : Unbroken l) :
    (lines l).filter keep = [l].filter keep := by
  rw [filter_lines hk, List.splitOnP_eq_singleton h]

def AtLineStart (before : Text) : Prop := ∀ c ∈ before.getLast?, isLineBreak c = true

def AtLineEnd (after : Text) : Prop := ∀ c ∈ after.head?, isLineBreak c = true

/-- A carriage return at the end of the first part and a line feed at the start of the second make
one break together, and then an empty line is lost. -/
theorem filter_lines_append (hk : keep [] = false) {s t : Text}
    (h : AtLineStart s ∨ AtLineEnd t) :
    (lines (s ++ t)).filter keep = (lines s).filter keep ++ (lines t).filter keep := by
  have he : (lines []).filter keep = [] := rfl
  rcases h with h | h
  · cases hs : s.getLast? with
    | none =>
      rw [List.getLast?_eq_none_iff.mp hs, he, List.nil_append, List.nil_append]
    | some c =>
      have hc : isLineBreak c = true := h c hs
      obtain ⟨u, rfl⟩ := List.getLast?_eq_some_iff.mp hs
      have hu := filter_lines_break hk hc u []
      rw [he, List.append_nil] at hu
      rw [List.append_assoc, List.singleton_append, filter_lines_break hk hc, hu]
  · cases t with
    | nil => rw [he, List.append_nil, List.append_nil]
    | cons c v =>
      have hc : isLineBreak c = true := h c rfl
      have hv := filter_lines_break hk hc [] v
      rw [he, List.nil_append, List.nil_append] at hv
      rw [filter_lines_break hk hc, hv]

end Text

end ManchesterBaby
