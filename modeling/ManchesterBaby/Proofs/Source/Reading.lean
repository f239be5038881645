import Mathlib.Data.List.TakeWhile
import ManchesterBaby.Proofs.Outcome
import ManchesterBaby.Proofs.Text.Lines
import ManchesterBaby.Source.Reading

/-! What comes of reading a source text: the statements of its lines in their places, or the fault
of the first line that cannot be read. -/

namespace ManchesterBaby

theorem withoutFeeds_of_unbroken {line : Text} (h : Unbroken line) : withoutFeeds line = line := by
  rw [withoutFeeds, List.reverse_eq_iff, List.dropWhile_eq_self_iff]
  intro hl
  have hb := h _ (List.mem_reverse.mp (List.getElem_mem hl))
  contrapose! hb
  rw [beq_iff_eq] at hb
  rw [hb]
  decide

theorem firstColumn_eq (line : Text) : firstColumn line = (line.takeWhile isBlank).length + 1 := by
  have hs : ∀ c : Char, isBlank c = true → c ≠ ';' := by
    rintro c hc rfl
    cases hc
  -- a semicolon is not blank, so a comment does not move the column
  rw [firstColumn, Statement.stripComment, List.takeWhile_takeWhile]
  congr 3
  funext c
  by_cases hc : isBlank c = true
  · simp [hc, hs c hc]
  · simp [hc]

/-- The place of a line's first character that is not blank. -/
def placeOf (file : Text) (number : Nat) (line : Text) : Location :=
  ⟨file, number, (line.takeWhile isBlank).length + 1⟩

/-- Something has its place in a line of the text that is not void. Lines are counted from zero on
here, and from one on in the place. -/
structure Placed.StandsAt {α : Type} (x : Placed α) (file source : Text) (number : Nat)
    (line : Text) : Prop where
  getElem?_lines : source.lines[number]? = some line
  not_void : isVoid line = false
  location_eq : x.location = some (placeOf file (number + 1) line)
  source_eq : x.source = some line

def readableLines (d : Dialect) (file source : Text) : List Line :=
  (source.lines.zipIdx 1).filterMap fun (line, number) =>
    if isVoid line then none
    else (Statement.read d line).toOption.map fun s =>
      ⟨s, some (placeOf file number line), some line⟩

def IsReadable (d : Dialect) (line : Text) : Prop :=
  isVoid line = true ∨ ∃ s, Statement.read d line = .ok s

/-- The line after the given lines is the first of the text that is neither void nor readable. -/
structure FirstRejected (d : Dialect) (source : Text) (before : List Text) (line : Text)
    (fault : Fault) : Prop where
  lines_eq : ∃ after, source.lines = before ++ line :: after
  readable_before : ∀ l ∈ before, IsReadable d l
  not_void : isVoid line = false
  rejected : Statement.read d line = .error fault

/-- Every line is void or readable, and these are the ones that are read. -/
structure ReadsAs (d : Dialect) (file source : Text) (lines : List Line) : Prop where
  readable : ∀ line ∈ source.lines, IsReadable d line
  lines_eq : lines = readableLines d file source

variable {d : Dialect} {file source : Text}

theorem readLine_of_unbroken {line : Text} (h : Unbroken line) (number : Nat) :
    readLine d (some ⟨file, number, firstColumn line⟩) line =
      match Statement.read d line with
      | .ok s => .ok ⟨s, some (placeOf file number line), some line⟩
      | .error fault => .error ⟨fault, some (placeOf file number line), some line⟩ := by
  rw [readLine, withoutFeeds_of_unbroken h, firstColumn_eq]
  rfl

theorem exists_readLine_iff {location : Option Location} {line : Text} :
    (∃ l, readLine d location line = .ok l) ↔ ∃ s, Statement.read d line = .ok s := by
  rw [readLine]
  cases Statement.read d line <;> simp

theorem isReadable_iff {location : Option Location} {line : Text} :
    IsReadable d line ↔ ((!isVoid line) = true → ∃ l, readLine d location line = .ok l) := by
  rw [exists_readLine_iff, IsReadable, Bool.not_eq_true', ← Bool.not_eq_true, or_iff_not_imp_left]

theorem forall_mem_zipIdx_iff {P : Text → Prop} (first : Nat) {lines : List Text} :
    (∀ x ∈ lines.zipIdx first, P x.1) ↔ ∀ line ∈ lines, P line := by
  rw [← List.forall_mem_map (f := Prod.fst), List.zipIdx_map_fst]

/-- The first line that is neither void nor readable decides. -/
theorem readSource_eq_error_iff {diagnostic : Diagnostic} :
    readSource d file source = .error diagnostic ↔
      ∃ before line fault, FirstRejected d source before line fault ∧
        diagnostic = ⟨fault, some (placeOf file (before.length + 1) line), some line⟩ := by
  have hu : ∀ line ∈ source.lines, Unbroken line := fun _ h => Text.unbroken_of_mem_lines h
  rw [readSource, mapM_filter_eq_error_iff]
  constructor
  · rintro ⟨numbered, ⟨line, number⟩, rest, hl, hb, hv, he⟩
    obtain ⟨before, after, hs, rfl, hr⟩ := List.zipIdx_eq_append_iff.mp hl
    obtain ⟨_, tail, rfl, hn, -⟩ := List.zipIdx_eq_cons_iff.mp hr.symm
    obtain ⟨rfl, rfl⟩ := Prod.mk.inj hn
    change readLine d _ line = _ at he
    rw [readLine_of_unbroken (hu line (by simp [hs])), Nat.add_comm] at he
    have hb' : ∀ l ∈ before, IsReadable d l :=
      (forall_mem_zipIdx_iff 1).mp fun x hx => isReadable_iff.mpr (hb x hx)
    cases hf : Statement.read d line with
    | ok s => simp [hf] at he
    | error fault =>
      rw [hf] at he
      exact ⟨before, line, fault, ⟨⟨tail, hs⟩, hb', by simpa using hv, hf⟩,
        (Except.error.inj he).symm⟩
  · rintro ⟨before, line, fault, ⟨⟨after, hs⟩, hb, hv, hf⟩, rfl⟩
    refine ⟨before.zipIdx 1, (line, 1 + before.length), after.zipIdx (1 + before.length + 1),
      ?_, ?_, ?_, ?_⟩
    · rw [hs, List.zipIdx_append]
      rfl
    · exact fun x hx => isReadable_iff.mp ((forall_mem_zipIdx_iff 1).mpr hb x hx)
    · simp [hv]
    · change readLine d _ line = _
      rw [readLine_of_unbroken (hu line (by simp [hs])), hf, Nat.add_comm]

theorem exists_readSource_iff :
    (∃ lines, readSource d file source = .ok lines) ↔
      ∀ line ∈ source.lines, IsReadable d line := by
  rw [readSource, exists_mapM_eq_ok_iff, ← forall_mem_zipIdx_iff 1]
  simp only [List.mem_filter, and_imp]
  exact forall₂_congr fun x _ => isReadable_iff.symm

theorem readSource_eq_ok_iff {lines : List Line} :
    readSource d file source = .ok lines ↔ ReadsAs d file source lines := by
  have hl : ∀ {ls : List Line}, readSource d file source = .ok ls →
      ls = readableLines d file source := by
    intro ls h
    rw [eq_filterMap_of_mapM h, List.filterMap_filter, readableLines]
    apply List.filterMap_congr
    rintro ⟨line, number⟩ hm
    have hu : Unbroken line := Text.unbroken_of_mem_lines (List.fst_mem_of_mem_zipIdx hm)
    simp only [readLine_of_unbroken hu]
    by_cases hv : isVoid line = true
    · simp [hv]
    · cases Statement.read d line <;> simp [hv, Except.toOption]
  constructor
  · exact fun h => ⟨exists_readSource_iff.mp ⟨lines, h⟩, hl h⟩
  · rintro ⟨hr, rfl⟩
    obtain ⟨ls, h⟩ := exists_readSource_iff.mpr hr
    rw [h, hl h]

theorem FirstRejected.getElem?_lines {before : List Text} {line : Text} {fault : Fault}
    (h : FirstRejected d source before line fault) : source.lines[before.length]? = some line := by
  obtain ⟨after, hl⟩ := h.lines_eq
  simp [hl]

theorem exists_standsAt_of_mem {lines : List Line} (h : readSource d file source = .ok lines)
    {l : Line} (hl : l ∈ lines) : ∃ (number : Nat) (line : Text),
      l.StandsAt file source number line ∧ Statement.read d line = .ok l.item := by
  rw [(readSource_eq_ok_iff.mp h).lines_eq] at hl
  obtain ⟨⟨line, n⟩, hn, he⟩ := List.mem_filterMap.mp hl
  obtain ⟨hle, hline⟩ := List.mk_mem_zipIdx_iff_le_and_getElem?_sub.mp hn
  obtain ⟨number, rfl⟩ := Nat.exists_eq_add_of_le' hle
  dsimp only at he
  by_cases hv : isVoid line = true
  · simp [hv] at he
  · rw [if_neg hv, Option.map_eq_some_iff] at he
    obtain ⟨s, hs, rfl⟩ := he
    have hs := toOption_eq_some_iff.mp hs
    exact ⟨number, line, ⟨hline, Bool.eq_false_iff.mpr hv, rfl, rfl⟩, hs⟩

end ManchesterBaby
