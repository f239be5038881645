import ManchesterBaby.Machine.Execution
import ManchesterBaby.Text.Lines

/-! How a machine is shown: the dump of its registers and store, a line of its trace, and the
reason why it halted. -/

namespace ManchesterBaby

def Halt.text : Halt → Text
  | stopped address => "Program stop instruction encountered at ".toList ++ hexadecimal 6 address
  | exhausted _ budget =>
    "Exceeded the maximum of ".toList ++ decimal budget ++ " iterations".toList

namespace Machine

def cell (m : Machine) (a : Address) : Text :=
  hexadecimal 4 a ++ ": ".toList ++ m.format.hexWord m.store[a] ++ [';']

/-- The cells at addresses `4 * row` to `4 * row + 3`. -/
def dumpRow (m : Machine) (row : Fin 8) : Text :=
  let cells := (List.finRange 4).map fun column : Fin 4 => m.cell ⟨4 * row + column, by omega⟩
  List.intercalate [' '] cells

def dump (m : Machine) : Text :=
  let registers :=
    "Accumulator: ".toList ++ m.format.hexWord m.accumulator ++
      "; Instruction Register: ".toList ++ hexadecimal (m.format.fieldDigits + 2) m.current ++ [';']
  let counter := "Instruction Address: ".toList ++ hexadecimal 6 m.counter ++ "; Main Store:".toList
  Text.joinLines (registers :: counter :: (List.finRange 8).map m.dumpRow) ++ ['\n']

/-- The step number, the counter, the instruction and the accumulator. -/
def traceLine (m : Machine) (step : Int) : Text :=
  List.leftpad 5 ' ' (decimal step) ++ "  ".toList ++ hexadecimal 4 m.counter ++ "  ".toList ++
    List.rightpad 8 ' ' m.instruction.mnemonic ++ "  acc=".toList ++ decimal m.accumulator

end Machine

end ManchesterBaby
