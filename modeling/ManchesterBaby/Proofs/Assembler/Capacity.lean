import ManchesterBaby.Capacity.Assembly
import ManchesterBaby.Proofs.Capacity

/-! What an assembly comes to when the words of its format may be too large to be worked out. -/

namespace ManchesterBaby

variable {memory : Memory}

/-- What is in the way of the words of a program. The first has all of it in its way. -/
def Program.storeFault? (memory : Memory) (p : Program) : Option SizeFault :=
  p.instructions.head?.bind (·.wordFault? memory p.format)

theorem Program.storeFault?_eq_none {p : Program} (h : p.format.wordFault? memory = none) :
    p.storeFault? memory = none := by
  rw [storeFault?, Option.bind_eq_none_iff]
  exact fun i _ => Instruction.wordFault?_eq_none h i

namespace Capacity

theorem programStore_eq (memory : Memory) (p : Program) :
    programStore memory p =
      match p.storeFault? memory with
      | some fault => .error (.size fault)
      | none => .ok p.store := by
  rw [programStore, store, findSome?_wordFault?, Program.storeFault?]
  cases p.instructions.head?.bind (·.wordFault? memory p.format) <;> rfl

theorem programStore_of_wordFault? {p : Program} (h : p.format.wordFault? memory = none) :
    programStore memory p = .ok p.store := by
  rw [programStore_eq, Program.storeFault?_eq_none h]

theorem programStore_eq_ok_iff {p : Program} {image : Store} :
    programStore memory p = .ok image ↔ p.storeFault? memory = none ∧ image = p.store := by
  rw [programStore_eq]
  cases p.storeFault? memory with
  | none => simp [eq_comm]
  | some fault => simp

theorem programStore_outcome (memory : Memory) (p : Program) :
    programStore memory p = .ok p.store ∨
      ∃ f, programStore memory p = .error f ∧ f.category = .internal := by
  rw [programStore_eq]
  cases p.storeFault? memory with
  | none => exact .inl rfl
  | some fault => exact .inr ⟨.size fault, rfl, rfl⟩

theorem load_of_wordFault? {f : WordFormat} (h : f.wordFault? memory = none) (image : List Int) :
    load memory f image = (Machine.load f image).mapError .image := by
  rw [load, f.fieldFault?_eq_none h, h, ite_self]
  rfl

theorem assemble_eq (memory : Memory) (a : Assembler) (file source : Text) :
    assemble memory a file source =
      ((a.programFor file source).mapError .diagnostic >>= programStore memory,
        { a with program := (a.programFor file source).toOption }) := by
  rw [assemble, Assembler.hold]
  cases a.programFor file source <;> rfl

theorem assemble_snd_program (memory : Memory) (a : Assembler) (file source : Text) :
    (assemble memory a file source).2.program = (a.programFor file source).toOption := by
  rw [assemble_eq]

theorem assemble_snd_format (memory : Memory) (a : Assembler) (file source : Text) :
    (assemble memory a file source).2.format = a.format := by
  rw [assemble_eq]

theorem assemble_fst_eq_ok_iff {a : Assembler} {file source : Text} {image : Store} :
    (assemble memory a file source).1 = .ok image ↔
      ∃ p, a.programFor file source = .ok p ∧ programStore memory p = .ok image := by
  rw [assemble_eq]
  cases a.programFor file source with
  | error d => simp [Except.mapError, bind, Except.bind]
  | ok p => simp [Except.mapError, bind, Except.bind]

theorem assembleFile_of_readText {a : Assembler} {files : FileStore} {path source : Text}
    (h : files.readText path = .ok source) :
    assembleFile memory a files path = assemble memory a (Path.normal path) source := by
  simp only [assembleFile, Assembler.holdFile, h]
  rfl

/-- A file that cannot be read leaves the program of an earlier assembly. -/
theorem assembleFile_of_unread {a : Assembler} {files : FileStore} {path : Text} {f : Failure}
    (h : files.readText path = .error f) : assembleFile memory a files path = (.error f, a) := by
  simp only [assembleFile, Assembler.holdFile, h]
  rfl

theorem programFor_of_diagnostic {a : Assembler} {file source : Text} {d : Diagnostic}
    (h : (assemble memory a file source).1 = .error (.diagnostic d)) :
    a.programFor file source = .error d := by
  rw [assemble_eq] at h
  cases hp : a.programFor file source with
  | error e =>
    rw [hp] at h
    cases h
    rfl
  | ok p =>
    rw [hp] at h
    change programStore memory p = _ at h
    rcases programStore_outcome memory p with hs | ⟨f, hs, hf⟩
    · rw [hs] at h
      cases h
    · rw [hs] at h
      cases h
      cases hf

end Capacity

end ManchesterBaby
