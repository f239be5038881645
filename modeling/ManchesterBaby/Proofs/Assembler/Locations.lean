import ManchesterBaby.Proofs.Assembler.Capacity
import ManchesterBaby.Proofs.Link.Image
import ManchesterBaby.Proofs.Link.Linking
import ManchesterBaby.Proofs.Source.Faults
import ManchesterBaby.Proofs.Source.Layout
import ManchesterBaby.Proofs.Source.Reading
import ManchesterBaby.Proofs.Text.Similarity

/-! Where a diagnostic stands in a source text, and what its report then looks like. The line is
quoted as it is, with the caret under its first character that is not blank, and nothing that the
message quotes breaks a line of the report. -/

namespace ManchesterBaby

variable {d : Dialect} {file source line : Text} {lines : List Line} {diagnostic : Diagnostic}

theorem exists_standsAt_of_readSource (h : readSource d file source = .error diagnostic) :
    diagnostic.item.OneLine ∧ ∃ number line, diagnostic.StandsAt file source number line := by
  obtain ⟨before, line, fault, hr, rfl⟩ := readSource_eq_error_iff.mp h
  have hline := hr.getElem?_lines
  have hu : Unbroken line := Text.unbroken_of_mem_lines (List.mem_of_getElem? hline)
  exact ⟨Statement.oneLine_of_read hu.feed_notMem hr.rejected,
    before.length, line, hline, hr.not_void, rfl, rfl⟩

theorem exists_standsAt_of_firstUnbound (hr : readSource d file source = .ok lines)
    (h : FirstUnbound lines diagnostic) :
    diagnostic.item.OneLine ∧ ∃ number line, diagnostic.StandsAt file source number line := by
  obtain ⟨before, e, after, tag, he, -, hv, -, rfl⟩ := h
  have hmem : e ∈ entriesOf lines := he ▸ List.mem_append_cons_self
  obtain ⟨number, line, hstands, hs⟩ := exists_standsAt_of_mem hr (mk_mem_of_mem_entriesOf hmem)
  refine ⟨List.forall_mem_cons.mpr ⟨?_, fun similar hsimilar => ?_⟩, number, line,
    hstands.getElem?_lines, hstands.not_void, hstands.location_eq, hstands.source_eq⟩
  · rcases Statement.value_of_read hs with ⟨value, hvalue⟩ | hzero
    · rw [hv] at hvalue
      exact feed_notMem_of_isTagName (Value.isTagName_of_read hvalue)
    · rw [hv] at hzero
      cases hzero
  · obtain ⟨_, hb⟩ := mem_names_symbolTable_iff.mp (Similarity.mem_of_mem_closest hsimilar)
    exact feed_notMem_of_isTagName (isTagName_of_boundAt hr hb)

theorem exists_standsAt_of_programFor {a : Assembler}
    (h : a.programFor file source = .error diagnostic) (hl : diagnostic.location ≠ none) :
    diagnostic.item.OneLine ∧ ∃ number line, diagnostic.StandsAt file source number line := by
  rcases bind_eq_error_iff.mp h with hr | ⟨lines, hr, hlink⟩
  · exact exists_standsAt_of_readSource hr
  · rw [link_eq_error_iff] at hlink
    split at hlink
    · subst hlink
      exact absurd rfl hl
    · exact exists_standsAt_of_firstUnbound hr hlink

/-- The code of a line that is not void begins at its first character that is not blank. -/
theorem exists_margin_of_not_void (h : isVoid line = false) :
    ∃ margin c rest, line = margin ++ c :: rest ∧ margin = line.takeWhile isBlank ∧
      isBlank c = false ∧ c ≠ ';' := by
  have hline := List.takeWhile_append_dropWhile (p := isBlank) (l := line)
  have hmargin : isVoid (line.takeWhile isBlank) = true :=
    List.all_eq_true.mpr fun _ hb =>
      List.mem_takeWhile_imp ((List.takeWhile_sublist _).subset hb)
  cases hd : line.dropWhile isBlank with
  | nil =>
    rw [hd, List.append_nil] at hline
    rw [hline, h] at hmargin
    cases hmargin
  | cons c rest =>
    have hc := List.head?_dropWhile_not isBlank line
    rw [hd] at hc hline
    refine ⟨_, c, rest, hline.symm, rfl, by simpa using hc, ?_⟩
    rintro rfl
    rw [← hline, isVoid_eq, Statement.body_comment, ← isVoid_eq, hmargin] at h
    cases h

/-- The lines of the report of a diagnostic. It stands at the character `c` of its source line. -/
structure Diagnostic.ReportedAt (d : Diagnostic) (file source : Text) (number : Nat)
    (margin : Text) (c : Char) (rest : Text) : Prop where
  getElem?_lines : source.lines[number]? = some (margin ++ c :: rest)
  margin_blank : ∀ b ∈ margin, isBlank b = true
  not_blank : isBlank c = false
  not_semicolon : c ≠ ';'
  location_eq : d.location = some ⟨file, number + 1, margin.length + 1⟩
  pieces_text : d.text.pieces '\n' =
    [file ++ ':' :: decimal (number + 1) ++ ':' :: decimal (margin.length + 1) ++
        ": error: ".toList ++ d.item.message,
      "    ".toList ++ (margin ++ c :: rest),
      List.replicate (4 + margin.length) ' ' ++ ['^']] ++
    (d.item.hint.map ("hint: ".toList ++ ·)).toList

theorem Placed.StandsAt.reportedAt {number : Nat}
    (h : diagnostic.StandsAt file source number line) (ho : diagnostic.item.OneLine)
    (hf : '\n' ∉ file) :
    ∃ margin c rest, diagnostic.ReportedAt file source number margin c rest := by
  obtain ⟨margin, c, rest, rfl, hm, hc, hs⟩ := exists_margin_of_not_void h.not_void
  have hline := h.getElem?_lines
  have hu : Unbroken (margin ++ c :: rest) :=
    Text.unbroken_of_mem_lines (List.mem_of_getElem? hline)
  have hb : ∀ b ∈ margin, isBlank b = true := fun b hb => List.mem_takeWhile_imp (hm ▸ hb)
  have hlocation : diagnostic.location = some ⟨file, number + 1, margin.length + 1⟩ := by
    rw [h.location_eq, placeOf, ← hm]
    rfl
  have hcolumn : (((margin.length : Int) + 1) + 3).toNat = 4 + margin.length := by omega
  refine ⟨margin, c, rest, hline, hb, hc, hs, hlocation, ?_⟩
  rw [Diagnostic.pieces_text ho hlocation h.source_eq hf hu.feed_notMem (by positivity), hcolumn]
  rfl

/-- A diagnostic with a location is reported in three lines, and a fourth for a hint: the heading
with the location, the line of the source that the location names, and a caret under the first
character of the line that is not blank. -/
theorem diagnostic_reportedAt {memory : Memory} {a : Assembler} (hf : '\n' ∉ file)
    (h : (Capacity.assemble memory a file source).1 = .error (.diagnostic diagnostic))
    (hl : diagnostic.location ≠ none) :
    ∃ number margin c rest, diagnostic.ReportedAt file source number margin c rest := by
  obtain ⟨ho, number, line, hs⟩ :=
    exists_standsAt_of_programFor (Capacity.programFor_of_diagnostic h) hl
  exact ⟨number, hs.reportedAt ho hf⟩

/-- The caret is set in by one space for each of the two blanks, whatever they are, and the tag that
is meant is offered. -/
theorem diagnostic_reportedAt_misspelled :
    let a := Assembler.new .modern .standard true
    let file := "p.asm".toList
    let source := ":start\r\n\u3000\tjmp $Strat;x\n".toList
    let d : Diagnostic := ⟨.unknownTag "strat".toList ["start".toList], some ⟨file, 2, 3⟩,
      some "\u3000\tjmp $Strat;x".toList⟩
    '\n' ∉ file ∧ (Capacity.assemble .unlimited a file source).1 = .error (.diagnostic d) ∧
      d.location ≠ none ∧
      ∃ number margin c rest, d.ReportedAt file source number margin c rest := by
  intro a file source d
  have hf : '\n' ∉ file := by decide
  have h : (Capacity.assemble .unlimited a file source).1 = .error (.diagnostic d) := by
    decide +kernel
  have hl : d.location ≠ none := by decide
  exact ⟨hf, h, hl, diagnostic_reportedAt hf h hl⟩

end ManchesterBaby
