import ManchesterBaby.Failure
import ManchesterBaby.Link.Program

/-! The codec and the encodings of a program, with the computations refused that cannot be held. -/

namespace ManchesterBaby

namespace Capacity

/-- Goes on if nothing is in the way. -/
def require (fault : Option SizeFault) : Except Failure Unit :=
  match fault with
  | some fault => .error (.size fault)
  | none => .ok ()

/-- Sets up a column of a text. Its width is written in decimal for that. -/
def column (memory : Memory) (width : Nat) : Except Failure Unit :=
  if fitsDecimal width then require (memory.lengthFault? width .columnTooWide)
  else .error .unwritable

def decode (memory : Memory) (f : WordFormat) (word : Int) : Except Failure Instruction := do
  require (f.fieldFault? memory)
  return .decode f word

/-- A jump has the opcode zero and is encoded as its address, however wide the format is. -/
def encode (memory : Memory) (f : WordFormat) (i : Instruction) : Except Failure Int := do
  if i.kind = .jump then return i.address
  require (i.encodeFault? memory f)
  return i.encode f

def word (memory : Memory) (f : WordFormat) (i : Instruction) : Except Failure Int := do
  require (i.wordFault? memory f)
  return f.toWord (i.encode f)

/-- Words beyond the end of the store are worked out as well. -/
def store (memory : Memory) (f : WordFormat) (program : List Instruction) :
    Except Failure Store := do
  require (program.findSome? (·.wordFault? memory f))
  return .ofProgram f program

def words (memory : Memory) (p : Program) : Except Failure (List Int) :=
  p.instructions.mapM (word memory p.format)

def resolveWord (memory : Memory) (f : WordFormat) (symbols : SymbolTable) (e : Placed Entry) :
    Except Failure Int := do
  let i ← (resolveEntry symbols e).mapError (.ofDiagnostic memory)
  word memory f i

end Capacity

end ManchesterBaby
