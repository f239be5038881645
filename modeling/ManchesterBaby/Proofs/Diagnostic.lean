import ManchesterBaby.Diagnostic
import ManchesterBaby.Proofs.Numeral
import ManchesterBaby.Proofs.Text.Lines

/-! The lines of a report. A message and a hint have as many lines as the texts that they quote, so
a report of texts without a line feed has its heading, its excerpt and its hint for lines. -/

namespace ManchesterBaby

theorem feed_notMem_decimal (n : Int) : '\n' ∉ decimal n := notMem_decimal (by decide) (by decide) n

theorem Text.notMem_quoted {c : Char} {t : Text} (hc : c ≠ '\x27') (h : c ∉ t) : c ∉ t.quoted :=
  List.not_mem_cons_of_ne_of_not_mem hc (List.not_mem_append h (by simpa using hc))

namespace Fault

/-- What its message and its hint quote. -/
def texts : Fault → List Text
  | invalidValue text form => text :: form.toList
  | unknownInstruction text => [text]
  | missingOperand text mnemonic => [text, mnemonic]
  | invalidTagName name => [name]
  | unknownTag name similar => name :: similar
  | programTooLong _ _ | nothingAssembled => []

def OneLine (f : Fault) : Prop := ∀ t ∈ f.texts, '\n' ∉ t

variable {f : Fault}

theorem OneLine.quoted (h : f.OneLine) {t : Text} (ht : t ∈ f.texts) : '\n' ∉ t.quoted :=
  Text.notMem_quoted (by decide) (h t ht)

theorem OneLine.feed_notMem_message (h : f.OneLine) : '\n' ∉ f.message := by
  cases f with
  | invalidValue text form =>
    have hq := h.quoted (t := text) (by simp [texts])
    have hform : '\n' ∉ form.getD [] := by
      cases form with
      | none => exact List.not_mem_nil
      | some form => exact h form (by simp [texts])
    refine List.not_mem_append (List.not_mem_append (List.not_mem_append hq ?_) ?_) ?_
    · decide +kernel
    · split
      · exact hform
      · exact List.not_mem_append hform (by decide)
    · decide +kernel
  | unknownInstruction text | missingOperand text _ | invalidTagName text | unknownTag text _ =>
    have hq := h.quoted (t := text) (by simp [texts])
    refine List.not_mem_append (List.not_mem_append ?_ hq) ?_ <;> decide +kernel
  | programTooLong size capacity =>
    refine List.not_mem_append (List.not_mem_append (List.not_mem_append ?_ ?_) ?_) ?_
    · decide +kernel
    · exact feed_notMem_decimal size
    · decide +kernel
    · exact feed_notMem_decimal capacity
  | nothingAssembled => decide +kernel

/-- There is something to every hint. -/
theorem OneLine.hint (h : f.OneLine) {hint : Text} (hf : f.hint = some hint) :
    hint ≠ [] ∧ '\n' ∉ hint := by
  cases f with
  | invalidValue text form =>
    rw [Fault.hint] at hf
    split at hf <;> cases hf
    exact ⟨by decide +kernel, by decide +kernel⟩
  | missingOperand text mnemonic =>
    cases hf
    have hq := h.quoted (t := mnemonic) (by simp [texts])
    exact ⟨List.append_ne_nil_of_left_ne_nil (List.cons_ne_nil _ _) _,
      List.not_mem_append hq (by decide +kernel)⟩
  | unknownTag name similar =>
    rw [Fault.hint] at hf
    split at hf <;> cases hf
    refine ⟨by simp, List.not_mem_append (List.not_mem_append (by decide +kernel) ?_) (by decide)⟩
    refine notMem_intercalate (by decide) ?_
    rw [List.forall_mem_map]
    exact fun other ho => h.quoted (List.mem_cons_of_mem name (List.mem_of_mem_take ho))
  | invalidTagName name | programTooLong size capacity =>
    cases hf
    exact ⟨by decide +kernel, by decide +kernel⟩
  | unknownInstruction text | nothingAssembled => cases hf

end Fault

namespace Note

variable {n : Note} {l : Location} {source : Text}

theorem heading_of_location (h : n.location = some l) :
    n.heading = l.text ++ ": error: ".toList ++ n.message := by
  rw [heading, h]

theorem excerpt_of_location (h : n.location = some l) (hs : n.source = some source)
    (hc : 0 < l.column) : n.excerpt =
      ["    ".toList ++ source, List.replicate (l.column + 3).toNat ' ' ++ ['^']] := by
  rw [excerpt, h, hs]
  simp [hc]

theorem hintLines_eq (h : ∀ hint ∈ n.hint, hint ≠ []) :
    n.hintLines = (n.hint.map ("hint: ".toList ++ ·)).toList := by
  rw [hintLines]
  cases hh : n.hint with
  | none => rfl
  | some hint =>
    have hne : hint.isEmpty = false := by simpa using h hint hh
    simp [hne]

theorem pieces_text (h : ∀ line ∈ n.heading :: n.excerpt ++ n.hintLines, '\n' ∉ line) :
    n.text.pieces '\n' = n.heading :: n.excerpt ++ n.hintLines :=
  Text.pieces_joinLines (by simp) h

end Note

theorem Location.feed_notMem_text {l : Location} (h : '\n' ∉ l.file) : '\n' ∉ l.text := by
  have hn : ∀ n : Int, '\n' ∉ ':' :: decimal n := fun n =>
    List.not_mem_cons_of_ne_of_not_mem (by decide) (feed_notMem_decimal n)
  exact List.not_mem_append (List.not_mem_append h (hn l.line)) (hn l.column)

/-- The report of a diagnostic in a source line has three lines, and a fourth if there is a hint. -/
theorem Diagnostic.pieces_text {d : Diagnostic} {l : Location} {source : Text}
    (ho : d.item.OneLine) (hl : d.location = some l) (hs : d.source = some source)
    (hf : '\n' ∉ l.file) (hsource : '\n' ∉ source) (hc : 0 < l.column) :
    d.text.pieces '\n' =
      [l.text ++ ": error: ".toList ++ d.item.message, "    ".toList ++ source,
        List.replicate (l.column + 3).toNat ' ' ++ ['^']] ++
      (d.item.hint.map ("hint: ".toList ++ ·)).toList := by
  have hheading := Note.heading_of_location (n := d.note) hl
  have hexcerpt := Note.excerpt_of_location (n := d.note) hl hs hc
  have hhint := Note.hintLines_eq (n := d.note) fun hint hh => (ho.hint hh).1
  rw [text, Note.pieces_text, hheading, hexcerpt, hhint]
  · rfl
  rw [hheading, hexcerpt, hhint, List.forall_mem_append, List.forall_mem_cons,
    List.forall_mem_cons, List.forall_mem_singleton]
  refine ⟨⟨?_, ?_, ?_⟩, fun line hline => ?_⟩
  · refine List.not_mem_append (List.not_mem_append ?_ (by decide +kernel)) ?_
    · exact Location.feed_notMem_text hf
    · exact ho.feed_notMem_message
  · exact List.not_mem_append (by decide) hsource
  · refine List.not_mem_append (fun h => ?_) (by decide)
    cases List.eq_of_mem_replicate h
  · obtain ⟨hint, hh, rfl⟩ := Option.map_eq_some_iff.mp (Option.mem_toList.mp hline)
    exact List.not_mem_append (by decide +kernel) (ho.hint hh).2

end ManchesterBaby
