import ManchesterBaby.Assembler
import ManchesterBaby.Capacity.Execution

/-! The assembler, with the computations refused that cannot be held. A program is held even if
the words of its format cannot be. -/

namespace ManchesterBaby

namespace Capacity

def programStore (memory : Memory) (p : Program) : Except Failure Store :=
  store memory p.format p.instructions

def assemble (memory : Memory) (a : Assembler) (file source : Text) :
    Except Failure Store × Assembler :=
  let (result, a) := a.hold file source
  (result.mapError .diagnostic >>= programStore memory, a)

def assembleFile (memory : Memory) (a : Assembler) (files : FileStore) (path : Text) :
    Except Failure Store × Assembler :=
  let (result, a) := a.holdFile files path
  (result >>= programStore memory, a)

def code (memory : Memory) (a : Assembler) : Except Failure Store := a.held >>= programStore memory

/-- A machine of the assembler's present format, loaded with the code. -/
def machine (memory : Memory) (a : Assembler) : Except Failure Machine := do
  let store ← code memory a
  load memory a.format store.toList

/-- The words are listed as they are in the assembler's present format. Their column is set up
before the first of them is made. -/
def listing (memory : Memory) (a : Assembler) : Except Failure Text := do
  let p ← a.held
  column memory (a.format.wordDigits + 4)
  require (p.loaded.findSome? (·.wordFault? memory a.format))
  if p.isListable then return p.listing a.format else throw .unwritable

def writeListing (memory : Memory) (a : Assembler) (files : FileStore) (path : Text) :
    Except Failure FileStore :=
  listing memory a >>= files.writeText path

end Capacity

end ManchesterBaby
