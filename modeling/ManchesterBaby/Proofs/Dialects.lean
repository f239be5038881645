import ManchesterBaby.Proofs.Link.Image
import ManchesterBaby.Proofs.Link.Placement
import ManchesterBaby.Proofs.Source.RoundTrip

/-! The two dialects agree: a program that is written in both is read as the same statements, and
assembles to the same program or fails with the same fault in the same place. -/

namespace ManchesterBaby

def Placed.withoutSource {α : Type} (p : Placed α) : Placed α := { p with source := none }

/-- Linking looks at no source line; it only passes them on in its diagnostics. -/
theorem link_withoutSource (f : WordFormat) (checkSize : Bool) (lines : List Line) :
    link f checkSize (lines.map Placed.withoutSource) =
      (link f checkSize lines).mapError Placed.withoutSource :=
  link_relocate ⟨fun location _ => (location, none), rfl⟩ f checkSize lines

variable {radix : Nat → Radix} {statements : List Statement}

/-- The lines of a program in either dialect, but for what is written on them. -/
def linesOf (file : Text) (statements : List Statement) : List Line :=
  statements.mapIdx fun i s => ⟨s, some ⟨file, i + 1, 1⟩, none⟩

theorem programFor_writeProgram (a : Assembler) (file : Text)
    (h : WritableProgram radix statements) :
    (a.programFor file (writeProgram a.dialect radix statements)).mapError Placed.withoutSource =
      link a.format a.checkSize (linesOf file statements) := by
  rw [Assembler.programFor, readSource_writeProgram a.dialect file h]
  change (link a.format a.checkSize _).mapError Placed.withoutSource = _
  simp only [← link_withoutSource, linesOf, List.mapIdx_eq_zipIdx_map, List.map_map]
  rfl

/-- Assembles a program that is written in the dialect, under settings that are else the same. -/
def Assembler.assembleIn (d : Dialect) (a : Assembler) (file : Text) (radix : Nat → Radix)
    (statements : List Statement) : Except Diagnostic Store × Assembler :=
  { a with dialect := d }.assemble file (writeProgram d radix statements)

theorem assembleIn_fst (d : Dialect) (a : Assembler) (file : Text)
    (h : WritableProgram radix statements) :
    (a.assembleIn d file radix statements).1.mapError Placed.withoutSource =
      (link a.format a.checkSize (linesOf file statements)).map (·.store) := by
  rw [Assembler.assembleIn, Assembler.assemble_fst, map_mapError,
    programFor_writeProgram { a with dialect := d } file h]

theorem assembleIn_program (d : Dialect) (a : Assembler) (file : Text)
    (h : WritableProgram radix statements) :
    (a.assembleIn d file radix statements).2.program =
      (link a.format a.checkSize (linesOf file statements)).toOption := by
  rw [Assembler.assembleIn, Assembler.assemble_snd_program,
    ← toOption_mapError _ Placed.withoutSource,
    programFor_writeProgram { a with dialect := d } file h]

/-- The image or the error is the same, and so is the program that is held afterwards, which has
the symbols. -/
theorem dialects_agree {radix : Dialect → Nat → Radix} (a : Assembler) (file : Text)
    (h : ∀ d, WritableProgram (radix d) statements) :
    (∀ d, (readSource d file (writeProgram d (radix d) statements)).map (·.map (·.item)) =
      .ok statements) ∧
    (a.assembleIn .modern file (radix .modern) statements).1.mapError Placed.withoutSource =
      (a.assembleIn .historical file (radix .historical) statements).1.mapError
        Placed.withoutSource ∧
    (a.assembleIn .modern file (radix .modern) statements).2.program =
      (a.assembleIn .historical file (radix .historical) statements).2.program := by
  refine ⟨?_, ?_, ?_⟩
  · intro d
    rw [readSource_writeProgram d file (h d), Except.map, List.mapIdx_eq_zipIdx_map, List.map_map]
    exact congrArg _ (List.zipIdx_map_fst 0 statements)
  · rw [assembleIn_fst .modern a file (h .modern),
      assembleIn_fst .historical a file (h .historical)]
  · rw [assembleIn_program .modern a file (h .modern),
      assembleIn_program .historical a file (h .historical)]

/-- Tags that look like the notation around them. -/
theorem dialects_agree_lookalikes :
    let radix : Dialect → Nat → Radix := fun d i =>
      if d = .modern then .hex else if i % 2 = 0 then .octal else .binary
    let statements : List Statement := [.tag "c,".toList,
      .entry (.order .store (.reference "c,".toList)), .tag "-$0x1,".toList,
      .entry (.order .negate (.literal (-5))), .entry (.data (.literal 8)),
      .entry (.order .jump (.reference "-$0x1,".toList)), .tag ":add".toList,
      .entry (.order .relativeJump (.reference ":add".toList)),
      .entry (.order .subtract (.literal 0)), .entry (.bare .skipNextIfNegative),
      .entry (.bare .stop)]
    let a := Assembler.new .modern .standard true
    (∀ d, WritableProgram (radix d) statements) ∧
      writeProgram .historical (radix .historical) statements =
        (":c,\nc, $c,\n:-$0x1,\n-0b-101, c\nabs 0o10\n$-$0x1,, cl\n::add\nadd $:add, cl\n" ++
          "sub 0o0\ntest\nstop").toList ∧
      (∀ d, (readSource d [] (writeProgram d (radix d) statements)).map (·.map (·.item)) =
        .ok statements) ∧
      (a.assembleIn .modern [] (radix .modern) statements).1.mapError Placed.withoutSource =
        (a.assembleIn .historical [] (radix .historical) statements).1.mapError
          Placed.withoutSource ∧
      (a.assembleIn .modern [] (radix .modern) statements).2.program =
        (a.assembleIn .historical [] (radix .historical) statements).2.program := by
  intro radix statements a
  have h : ∀ d, WritableProgram (radix d) statements := by
    intro d
    cases d <;> decide +kernel
  exact ⟨h, by decide +kernel, dialects_agree a [] h⟩

end ManchesterBaby
