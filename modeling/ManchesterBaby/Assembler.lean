import ManchesterBaby.Failure
import ManchesterBaby.Link.Listing
import ManchesterBaby.Machine.Execution

/-! The assembler: settings, which may change between assemblies, and the program of the last
assembly. Every result is asked of the held program. -/

namespace ManchesterBaby

structure Assembler where
  dialect : Dialect
  format : WordFormat
  checkSize : Bool
  program : Option Program

namespace Assembler

def new (dialect : Dialect) (format : WordFormat) (checkSize : Bool) : Assembler :=
  ⟨dialect, format, checkSize, none⟩

/-- The program that a source text makes under the present settings. -/
def programFor (a : Assembler) (file source : Text) : Except Diagnostic Program :=
  readSource a.dialect file source >>= link a.format a.checkSize

/-- Drops the held program and, if the source is accepted, holds the new one. -/
def hold (a : Assembler) (file source : Text) : Except Diagnostic Program × Assembler :=
  match a.programFor file source with
  | .ok p => (.ok p, { a with program := some p })
  | .error d => (.error d, { a with program := none })

/-- A file that cannot be read leaves the assembler as it is. -/
def holdFile (a : Assembler) (files : FileStore) (path : Text) :
    Except Failure Program × Assembler :=
  match files.readText path with
  | .error f => (.error f, a)
  | .ok source =>
    let (result, a) := a.hold (Path.normal path) source
    (result.mapError .diagnostic, a)

/-- Holds the source's program and gives what the store is loaded with. -/
def assemble (a : Assembler) (file source : Text) : Except Diagnostic Store × Assembler :=
  let (result, a) := a.hold file source
  (result.map (·.store), a)

def held (a : Assembler) : Except Failure Program :=
  match a.program with
  | some p => .ok p
  | none => .error (.diagnostic (Fault.unplaced .nothingAssembled))

def symbols (a : Assembler) : Except Failure SymbolTable := a.held.map (·.symbols)

def instructions (a : Assembler) : Except Failure (List Instruction) := a.held.map (·.instructions)

def length (a : Assembler) : Except Failure Nat := a.held.map (·.length)

def symbolReport (a : Assembler) : Except Failure Text := a.held.map (·.symbolReport)

def writeSymbols (a : Assembler) (files : FileStore) (path : Text) : Except Failure FileStore :=
  a.symbolReport >>= files.writeText path

end Assembler

end ManchesterBaby
