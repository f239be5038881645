import ManchesterBaby.Proofs.Assembler.Views

/-! When the reports on an accepted source can be had. The symbols always can. The listing writes
values as they stand in the source, in decimal, and there is no bound on them. -/

namespace ManchesterBaby

/-- The column of the words can be set up, and the values that are listed can be written. -/
structure Program.CanList (p : Program) (f : WordFormat) : Prop where
  column : f.wordDigits + 4 ≤ largestIndex
  values : ∀ i ∈ p.loaded, i.kind = .absoluteValue → fitsDecimal i.operand = true

theorem Program.canList_iff {p : Program} {f : WordFormat} :
    p.CanList f ↔ f.wordDigits + 4 ≤ largestIndex ∧ p.isListable = true := by
  have hi : ∀ i : Instruction,
      i.isWritable = true ↔ (i.kind = .absoluteValue → fitsDecimal i.operand = true) := by
    intro i
    rw [Instruction.isWritable, Bool.or_eq_true, bne_iff_ne, ne_eq, or_iff_not_imp_left, not_not]
  rw [isListable, List.all_eq_true]
  simp only [hi]
  exact ⟨fun h => ⟨h.column, h.values⟩, fun h => ⟨h.1, h.2⟩⟩

namespace Capacity

variable {memory : Memory} {a : Assembler} {p : Program}

/-- A listing that cannot be had is a failure of the program that makes it. -/
theorem category_of_listing {failure : Failure} (hp : a.program = some p)
    (h : listing memory a = .error failure) : failure.category = .internal := by
  rw [listing, Assembler.held_eq hp] at h
  rcases bind_eq_error_iff.mp h with h | ⟨_, hq, h⟩
  · cases h
  · rcases bind_eq_error_iff.mp h with h | ⟨-, -, h⟩
    · exact category_of_column h
    · rcases bind_eq_error_iff.mp h with h | ⟨-, -, h⟩
      · exact category_of_require h
      · split at h
        · cases h
        · cases h
          rfl

/-- What is held once a source has been accepted. -/
theorem exists_linkedFrom_of_assemble {file source : Text} {image : Store}
    (h : (assemble memory a file source).1 = .ok image) :
    ∃ p lines, (assemble memory a file source).2.program = some p ∧ p.IsAssembled ∧
      p.LinkedFrom a.format lines ∧ image = p.store := by
  obtain ⟨p, hp, hs⟩ := assemble_fst_eq_ok_iff.mp h
  obtain ⟨lines, -, hl⟩ := bind_eq_ok_iff.mp hp
  refine ⟨p, lines, ?_, ⟨a, file, source, hp⟩, linkedFrom_of_link hl,
    (programStore_eq_ok_iff.mp hs).2⟩
  rw [assemble_snd_program, hp]
  rfl

/-- The words of a store that has been worked out are in the way of no listing. -/
theorem exists_listing_iff (hp : a.program = some p) (hf : p.format = a.format)
    (hs : p.storeFault? .unlimited = none) :
    (∃ t, listing .unlimited a = .ok t) ↔ p.CanList a.format := by
  have hloaded : p.loaded.findSome? (·.wordFault? .unlimited a.format) = none := by
    rw [Program.storeFault?, ← findSome?_wordFault?, hf] at hs
    rw [List.findSome?_eq_none_iff] at hs ⊢
    exact fun i hi => hs i (List.mem_of_mem_take hi)
  rw [Program.canList_iff]
  simp only [listing_eq_ok_iff hp, column_unlimited_eq_ok_iff, hloaded, true_and, exists_and_left,
    exists_eq, and_true]

end Capacity

end ManchesterBaby
