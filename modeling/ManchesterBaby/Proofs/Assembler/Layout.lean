import ManchesterBaby.Proofs.Assembler.Capacity
import ManchesterBaby.Proofs.Link.Placement
import ManchesterBaby.Proofs.Source.Layout

/-! The meaning of a source text is the meaning of its code, so its layout does not matter: it is
seen in the places of diagnostics and nowhere else. -/

namespace ManchesterBaby

/-- Assembles the code of a text. -/
def Assembler.programForCodes (a : Assembler) (codes : List Text) : Except Fault Program :=
  codes.mapM a.dialect.readCode >>= fun statements =>
    (link a.format a.checkSize (unplacedLines statements)).mapError (·.item)

theorem Assembler.programFor_mapError_item (a : Assembler) (file source : Text) :
    (a.programFor file source).mapError (·.item) = a.programForCodes (codesOf source) := by
  rw [programForCodes, ← readSource_codesOf a.dialect file, programFor]
  cases readSource a.dialect file source with
  | error d => rfl
  | ok lines => exact link_mapError_item a.format a.checkSize lines

theorem Assembler.programFor_eq_ok_iff {a : Assembler} {file source : Text} {p : Program} :
    a.programFor file source = .ok p ↔ a.programForCodes (codesOf source) = .ok p := by
  rw [← programFor_mapError_item a file, mapError_eq_ok_iff]

def Failure.withoutPlace : Failure → Failure
  | diagnostic d => diagnostic d.item.unplaced
  | f => f

theorem Capacity.assemble_fst_withoutPlace (memory : Memory) (a : Assembler) (file source : Text) :
    (assemble memory a file source).1.mapError Failure.withoutPlace =
      (a.programForCodes (codesOf source)).mapError (fun f => .diagnostic f.unplaced) >>=
        programStore memory := by
  rw [assemble_eq, ← Assembler.programFor_mapError_item a file]
  cases a.programFor file source with
  | error d => rfl
  | ok p =>
    change (programStore memory p).mapError Failure.withoutPlace = programStore memory p
    rw [programStore, store]
    cases p.instructions.findSome? (·.wordFault? memory p.format) <;> rfl

theorem Capacity.assemble_snd_eq (memory : Memory) (a : Assembler) (file source : Text) :
    (assemble memory a file source).2 =
      { a with program := (a.programForCodes (codesOf source)).toOption } := by
  rw [assemble_eq, ← Assembler.programFor_mapError_item a file, toOption_mapError]

/-- Texts that differ in their layout are read as the same statements and assembled to the same
image and program, or refused for the same fault. -/
theorem assemble_of_sameUpToLayout {s t : Text} (h : s.SameUpToLayout t)
    (memory : Memory) (a : Assembler) (file other : Text) :
    ((readSource a.dialect file s).map (·.map (·.item))).mapError (·.item) =
      ((readSource a.dialect other t).map (·.map (·.item))).mapError (·.item) ∧
    (Capacity.assemble memory a file s).1.mapError Failure.withoutPlace =
      (Capacity.assemble memory a other t).1.mapError Failure.withoutPlace ∧
    (Capacity.assemble memory a file s).2 = (Capacity.assemble memory a other t).2 := by
  have hc : codesOf s = codesOf t := Text.codesOf_eq h
  refine ⟨?_, ?_, ?_⟩
  · rw [readSource_codesOf, readSource_codesOf, hc]
  · rw [Capacity.assemble_fst_withoutPlace, Capacity.assemble_fst_withoutPlace, hc]
  · rw [Capacity.assemble_snd_eq, Capacity.assemble_snd_eq, hc]

/-- A line set in, two comments, one of them on a line of its own, and longer line ends. -/
theorem assemble_of_sameUpToLayout_comments :
    let s := ":a\nLDN $A".toList
    let t := "; negate\r\n:A\r\n\tldn $a ;x".toList
    let a := Assembler.new .modern .standard true
    Text.SameUpToLayout s t ∧ (Capacity.assemble .unlimited a [] s).1 = .ok (.ofWords [16384]) ∧
      ((readSource a.dialect [] s).map (·.map (·.item))).mapError (·.item) =
        ((readSource a.dialect [] t).map (·.map (·.item))).mapError (·.item) ∧
      (Capacity.assemble .unlimited a [] s).1.mapError Failure.withoutPlace =
        (Capacity.assemble .unlimited a [] t).1.mapError Failure.withoutPlace ∧
      (Capacity.assemble .unlimited a [] s).2 = (Capacity.assemble .unlimited a [] t).2 := by
  intro s t a
  have hletters : Text.LayoutEdit s (":A\n".toList ++ "ldn $a".toList ++ []) :=
    .letters (by decide)
  have hstart : Text.AtLineStart ":A\n".toList := by simp [Text.AtLineStart, isLineBreak]
  have hend : Text.AtLineEnd [] := by simp [Text.AtLineEnd]
  have hmargins := @Text.LayoutEdit.margins ":A\n".toList ['\t'] "ldn $a".toList [' '] []
    hstart hend (by decide) (by decide) (by decide)
  have hcomment := @Text.LayoutEdit.comment ":A\n".toList "\tldn $a ".toList ['x'] []
    hstart hend (by decide) (by decide)
  have hline := @Text.LayoutEdit.lineBefore [] "; negate".toList ['\n'] ":A\n\tldn $a ;x".toList
    (by simp [Text.AtLineStart]) (by decide) (by decide) (.inr ⟨'\n', by decide, rfl⟩)
  have hreturns : Text.LayoutEdit "; negate\n:A\n\tldn $a ;x".toList t :=
    .carriageReturns (by decide)
  have h : Text.SameUpToLayout s t :=
    .trans _ _ _ (.rel _ _ hletters) <| .trans _ _ _ (.rel _ _ hmargins) <|
      .trans _ _ _ (.rel _ _ hcomment) <| .trans _ _ _ (.rel _ _ hline) (.rel _ _ hreturns)
  exact ⟨h, by decide +kernel, assemble_of_sameUpToLayout h .unlimited a [] []⟩

end ManchesterBaby
