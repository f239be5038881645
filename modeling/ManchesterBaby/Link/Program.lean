import ManchesterBaby.Link.SymbolTable
import ManchesterBaby.Machine.Basic
import ManchesterBaby.Text.Similarity

/-! Linking: every value is resolved against the complete symbol table, so a reference may stand
before its tag. -/

namespace ManchesterBaby

def Value.resolve (symbols : SymbolTable) : Value → Except Fault Int
  | literal n => .ok n
  | reference tag =>
    match symbols.lookup tag with
    | some position => .ok position
    | none => .error (.unknownTag tag (Similarity.closest tag symbols.names))

namespace Entry

def kind : Entry → Kind
  | data _ => .absoluteValue
  | order kind _ => kind

def value : Entry → Value
  | data value => value
  | order _ operand => operand

def resolve (symbols : SymbolTable) (e : Entry) : Except Fault Instruction :=
  (e.value.resolve symbols).map (.ofOperand e.kind)

end Entry

def resolveEntry (symbols : SymbolTable) (e : Placed Entry) : Except Diagnostic Instruction :=
  match e.item.resolve symbols with
  | .ok i => .ok i
  | .error f => .error ⟨f, e.location, e.source⟩

def resolveWord (f : WordFormat) (symbols : SymbolTable) (e : Placed Entry) :
    Except Diagnostic Int :=
  (resolveEntry symbols e).map fun i => f.toWord (i.encode f)

/-- A linked program. Data has become absolute values. -/
structure Program where
  instructions : List Instruction
  symbols : SymbolTable
  format : WordFormat
deriving DecidableEq

namespace Program

def words (p : Program) : List Int :=
  p.instructions.map fun i => p.format.toWord (i.encode p.format)

/-- What the machine's store is loaded with; words beyond its size are left out. -/
def store (p : Program) : Store := .ofProgram p.format p.instructions

def length (p : Program) : Nat := p.instructions.length

end Program

/-- With `checkSize` a program longer than the store is refused before anything is resolved. -/
def link (f : WordFormat) (checkSize : Bool) (lines : List Line) : Except Diagnostic Program :=
  let entries := taggedEntries lines
  let symbols := symbolTable entries
  if checkSize && storeSize < entries.length then
    .error (Fault.unplaced (.programTooLong entries.length storeSize))
  else
    (entries.mapM fun e => resolveEntry symbols e.2).map fun instructions =>
      ⟨instructions, symbols, f⟩

end ManchesterBaby
