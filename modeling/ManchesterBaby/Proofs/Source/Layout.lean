import Mathlib.Logic.Relation
import ManchesterBaby.Proofs.Source.Code

/-! Layout: the case of letters, comments, margins, lines that say nothing and the form of the line
ends. A text that differs from another in its layout only has the same code. -/

namespace ManchesterBaby

theorem semicolon_notMem_of_isBlank {t : Text} (h : t.all isBlank = true) : ';' ∉ t := fun hm =>
  Bool.noConfusion (List.all_eq_true.mp h ';' hm)

namespace Statement

theorem stripComment_append {line : Text} (h : ';' ∉ line) (rest : Text) :
    stripComment (line ++ rest) = line ++ stripComment rest :=
  List.takeWhile_append_of_pos fun _ hc => bne_iff_ne.mpr fun he => h (he ▸ hc)

theorem stripComment_of_notMem {line : Text} (h : ';' ∉ line) : stripComment line = line :=
  List.takeWhile_eq_self_iff.mpr fun _ hc => bne_iff_ne.mpr fun he => h (he ▸ hc)

theorem stripComment_comment (line comment : Text) :
    stripComment (line ++ ';' :: comment) = stripComment line := by
  by_cases h : ';' ∈ line
  · obtain ⟨before, after, rfl, hb⟩ := List.eq_append_cons_of_mem h
    rw [List.append_assoc, stripComment_append hb, stripComment_append hb]
    rfl
  · rw [stripComment_append h, stripComment_of_notMem h]
    exact List.append_nil line

theorem body_comment (line comment : Text) : body (line ++ ';' :: comment) = body line := by
  rw [body, stripComment_comment, body]

theorem body_margins {left right : Text} (hl : left.all isBlank = true)
    (hr : right.all isBlank = true) (line : Text) :
    body (left ++ (line ++ right)) = body line := by
  rw [body, body, stripComment_append (semicolon_notMem_of_isBlank hl)]
  by_cases h : ';' ∈ line
  · -- the margin on the right belongs to the comment
    obtain ⟨before, after, rfl, -⟩ := List.eq_append_cons_of_mem h
    rw [List.append_assoc, List.cons_append, stripComment_comment, stripComment_comment]
    have hm : (left ++ (stripComment before ++ [])).trim = (stripComment before).trim :=
      Text.trim_margins hl rfl _
    rwa [List.append_nil] at hm
  · rw [stripComment_append h, stripComment_of_notMem h,
      stripComment_of_notMem (semicolon_notMem_of_isBlank hr), Text.trim_margins hl hr]

theorem body_lowerLetters (line : Text) :
    body (Text.lowerLetters line) = Text.lowerLetters (body line) := by
  have hc : ∀ c : Char, (c.toLower != ';') = (c != ';') :=
    apply_toLower (· != ';') (by decide)
  rw [body, stripComment, Text.takeWhile_lowerLetters _ hc, Text.trim_lowerLetters]
  rfl

end Statement

namespace Text

def IsBreak (t : Text) : Prop := t = ['\r', '\n'] ∨ ∃ c, isLineBreak c = true ∧ t = [c]

theorem IsBreak.atLineStart {ending : Text} (h : IsBreak ending) (before : Text) :
    AtLineStart (before ++ ending) := by
  rcases h with rfl | ⟨c, hc, rfl⟩
  · simp [AtLineStart, isLineBreak]
  · simpa [AtLineStart] using hc

theorem IsBreak.atLineEnd {ending : Text} (h : IsBreak ending) (after : Text) :
    AtLineEnd (ending ++ after) := by
  rcases h with rfl | ⟨c, hc, rfl⟩
  · simp [AtLineEnd, isLineBreak]
  · simpa [AtLineEnd] using hc

/-- One change to the layout of a text. A line is what stands between the start of a line and the
end of one. -/
inductive LayoutEdit : Text → Text → Prop
  | letters {s t : Text} (h : s.lowerLetters = t.lowerLetters) : LayoutEdit s t
  | comment {before line comment after : Text} (hb : AtLineStart before) (ha : AtLineEnd after)
    (hl : Unbroken line) (hc : Unbroken comment) :
    LayoutEdit (before ++ line ++ after) (before ++ (line ++ ';' :: comment) ++ after)
  | margins {before left line right after : Text} (hb : AtLineStart before)
    (ha : AtLineEnd after) (hl : Unbroken line) (hm : Unbroken (left ++ right))
    (hk : (left ++ right).all isBlank = true) :
    LayoutEdit (before ++ line ++ after) (before ++ (left ++ (line ++ right)) ++ after)
  | lineBefore {before line ending after : Text} (hb : AtLineStart before) (hl : Unbroken line)
    (hv : isVoid line = true) (he : IsBreak ending) :
    LayoutEdit (before ++ after) (before ++ (line ++ ending) ++ after)
  | lineAfter {before line ending after : Text} (ha : AtLineEnd after) (hl : Unbroken line)
    (hv : isVoid line = true) (he : IsBreak ending) :
    LayoutEdit (before ++ after) (before ++ (ending ++ line) ++ after)
  | carriageReturns {t : Text} (h : '\r' ∉ t) : LayoutEdit t t.withCarriageReturns

/-- Any number of changes to the layout, made or undone. -/
abbrev SameUpToLayout : Text → Text → Prop := Relation.EqvGen LayoutEdit

theorem codesOf_lowerLetters (t : Text) : codesOf t.lowerLetters = codesOf t := by
  have hk : ∀ line, isVoid (lowerLetters line) = isVoid line := fun line => by
    rw [isVoid_eq, isVoid_eq, Statement.body_lowerLetters, lowerLetters, List.isEmpty_map]
  rw [codesOf, filter_lines rfl, splitOnP_lowerLetters t isLineBreak_toLower, List.filter_map,
    List.map_map, codesOf, filter_lines rfl]
  simp only [Function.comp_def, hk, Statement.body_lowerLetters, lower_lowerLetters]

theorem codesOf_insert {before line after : Text} (hb : AtLineStart before)
    (ha : AtLineEnd after) :
    codesOf (before ++ line ++ after) = codesOf before ++ codesOf line ++ codesOf after := by
  rw [codesOf_append (.inr ha), codesOf_append (.inl hb)]

theorem codesOf_isBreak {t : Text} (h : IsBreak t) : codesOf t = [] := by
  rcases h with rfl | ⟨c, hc, rfl⟩
  · rfl
  · have hn := @filter_lines_break (!isVoid ·) rfl c hc [] []
    rw [codesOf, ← List.nil_append [c], hn]
    rfl

theorem codesOf_void {line : Text} (hl : Unbroken line) (hv : isVoid line = true) :
    codesOf line = [] := by
  rw [codesOf_of_unbroken hl, ← isVoid_eq, if_pos hv]

theorem codesOf_edit {s t : Text} (h : LayoutEdit s t) : codesOf s = codesOf t := by
  cases h with
  | letters h => rw [← codesOf_lowerLetters s, h, codesOf_lowerLetters]
  | @comment before line comment after hb ha hl hc =>
    have hu : Unbroken (line ++ ';' :: comment) := hl.append (List.forall_mem_cons.mpr ⟨rfl, hc⟩)
    rw [codesOf_insert hb ha, codesOf_insert hb ha, codesOf_of_unbroken hl,
      codesOf_of_unbroken hu, Statement.body_comment]
  | @margins before left line right after hb ha hl hm hk =>
    have hleft : Unbroken left := (List.forall_mem_append.mp hm).1
    have hright : Unbroken right := (List.forall_mem_append.mp hm).2
    rw [List.all_append, Bool.and_eq_true] at hk
    rw [codesOf_insert hb ha, codesOf_insert hb ha, codesOf_of_unbroken hl,
      codesOf_of_unbroken (hleft.append (hl.append hright)), Statement.body_margins hk.1 hk.2]
  | @lineBefore before line ending after hb hl hv he =>
    have hn : codesOf (line ++ ending) = [] := by
      have hs : AtLineEnd ending := by simpa using he.atLineEnd []
      rw [codesOf_append (.inr hs), codesOf_void hl hv, codesOf_isBreak he]
      rfl
    rw [List.append_assoc, codesOf_append (.inl hb), codesOf_append (.inl hb),
      codesOf_append (.inl (he.atLineStart line)), hn]
    rfl
  | @lineAfter before line ending after ha hl hv he =>
    have hn : codesOf (ending ++ line) = [] := by
      have hs : AtLineStart ending := he.atLineStart []
      rw [codesOf_append (.inl hs), codesOf_void hl hv, codesOf_isBreak he]
      rfl
    rw [codesOf_append (.inr ha), codesOf_append (.inr ha),
      codesOf_append (.inr (he.atLineEnd line)), hn, List.append_nil]
  | carriageReturns h => rw [codesOf, codesOf, lines_withCarriageReturns h]

theorem codesOf_eq {s t : Text} (h : SameUpToLayout s t) : codesOf s = codesOf t := by
  induction h with
  | rel s t h => exact codesOf_edit h
  | refl s => rfl
  | symm s t _ ih => exact ih.symm
  | trans s t u _ _ hs ht => exact hs.trans ht

end Text

end ManchesterBaby
