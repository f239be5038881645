import ManchesterBaby.Capacity.Size
import ManchesterBaby.Command.Arguments
import ManchesterBaby.Command.ControlSequence

/-! What the commands do not do themselves: how much memory they have, how their arguments are read,
and what is shown of a text where there is no terminal. -/

namespace ManchesterBaby

structure Host where
  memory : Memory
  read : Tool → FileStore → List Text → Except UsageFault Request
  shown : Text → Text

/-- Reads arguments as it is told above, and shows no control sequences. -/
def Host.standard (memory : Memory) : Host := ⟨memory, Request.read, Text.withoutControlSequences⟩

end ManchesterBaby
