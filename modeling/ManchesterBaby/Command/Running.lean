import ManchesterBaby.Command.Setup
import ManchesterBaby.Machine.Display

/-! The command that assembles a file and runs it, with or without a trace. It ends with the
reason of the halt and a dump. -/

namespace ManchesterBaby

def Machine.haltLog (m : Machine) : Halt → LogEntry
  | .stopped address => ⟨.debug, "Stopped at ".toList ++ hexadecimal 6 address⟩
  | .exhausted _ budget =>
    ⟨.debug, "Step budget of ".toList ++ decimal budget ++ " exhausted at ".toList ++
      hexadecimal 6 m.counter⟩

def Halt.exitCode : Halt → Nat
  | stopped _ => 0
  | exhausted _ _ => 4

namespace Console

variable (host : Host)

/-- Tells of the run to come, if the command is verbose. A budget that is too long to be written
is a failure then. -/
def announced (c : Console) (a : Assembler) (o : Options) (budget : Int) : Progress Console := do
  let words ← c.attempt a.length
  if c.verbose && !fitsDecimal budget then throw (c, .unwritable)
  return c.remark host
    ("Running ".toList ++ o.shownInput ++ " (".toList ++ decimal words ++
      " words), at most ".toList ++ decimal budget ++ " steps".toList)

/-- Runs the machine and prints the trace, as far as it goes. -/
def runTraced (c : Console) (m : Machine) (budget : Int) : Progress (Console × Machine × Halt) :=
  let (lines, result) := Capacity.trace host.memory m budget
  let c := lines.foldl (·.say host ·) c
  (c.attempt result).map (c, ·)

/-- Tells of the halt and dumps the machine. By then nothing takes care of a failure any more. -/
def halted (c : Console) (m : Machine) (halt : Halt) : Report :=
  let c := c.say host halt.text
  match Capacity.dump host.memory m with
  | .ok dump => (c.print host dump).finish halt.exitCode
  | .error _ => c.abort

end Console

namespace Options

variable (host : Host)

def run (o : Options) (env : Environment) (c : Console) :
    Progress (Console × Machine × Halt) := do
  let (configuration, a) ← c.configured o env
  let (c, a) ← c.assembled host.memory a o
  let m ← c.attempt (Capacity.machine host.memory a)
  let budget := configuration.maxSteps
  let c ← c.announced host a o budget
  if o.trace then c.runTraced host m budget
  else
    let (final, halt) ← c.attempt (Capacity.run host.memory m budget)
    return (c.log [final.haltLog halt], final, halt)

def runReport (o : Options) (env : Environment) (files : FileStore) : Report :=
  match o.run host env (.start o.verbose files) with
  | .ok (c, final, halt) => c.halted host final halt
  | .error (c, f) => c.fail host "Run".toList f

end Options

end ManchesterBaby
