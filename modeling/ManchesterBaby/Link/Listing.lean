import ManchesterBaby.Link.Program

/-! The two reports on a program: its listing, a row for each word of the store that it takes up,
and its symbols by position. -/

namespace ManchesterBaby

namespace Program

/-- The tag at a position. -/
def tagAt? (p : Program) (position : Int) : Option Text :=
  (p.symbols.find? (·.2 == position)).map (·.1)

def listingHeader (f : WordFormat) : Text :=
  List.rightpad 6 ' ' "ADDR".toList ++ List.rightpad (f.wordDigits + 4) ' ' "WORD".toList ++
    List.rightpad 10 ' ' "INSTR".toList ++ "TAG".toList

def listingRow (p : Program) (f : WordFormat) (i : Instruction) (position : Nat) : Text :=
  Text.trimEnd
    (hexadecimal 4 position ++ "  ".toList ++ f.hexWord (f.toWord (i.encode f)) ++ "  ".toList ++
      List.rightpad 10 ' ' i.mnemonic ++ (p.tagAt? position).getD [])

/-- The part of a program that is loaded. -/
def loaded (p : Program) : List Instruction := p.instructions.take storeSize

/-- The listing, with the words as they are in the given format. -/
def listing (p : Program) (f : WordFormat) : Text :=
  let rows := p.loaded.zipIdx.map fun (i, position) => p.listingRow f i position
  Text.joinLines (listingHeader f :: rows) ++ ['\n']

def isListable (p : Program) : Bool := p.loaded.all (·.isWritable)

def symbolRow (name : Text) (position : Int) : Text :=
  List.rightpad 16 ' ' name ++ hexadecimal 4 position ++ ['\n']

/-- By position, and by name where two names have one position. -/
def symbolReport (p : Program) : Text :=
  let sorted := p.symbols.mergeSort fun x y => x.2 < y.2 || (x.2 == y.2 && x.1.le y.1)
  sorted.flatMap fun s => symbolRow s.1 s.2

end Program

end ManchesterBaby
