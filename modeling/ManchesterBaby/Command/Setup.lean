import ManchesterBaby.Command.Console

/-! What both commands begin with: the configuration in force and the assembled input file. -/

namespace ManchesterBaby

namespace Options

/-- The environment's configuration with the options over it. -/
def configure (o : Options) (env : Environment) : Except ConfigurationFault Configuration := do
  let c ← Configuration.ofEnvironment env
  return {
    wordBits := o.wordBits.getD c.wordBits
    fieldBits := o.fieldBits.getD c.fieldBits
    maxSteps := o.maxSteps.getD c.maxSteps
    checkSize := c.checkSize && o.checkSize }

def dialect (o : Options) : Dialect := if o.historical then .historical else .modern

def assembler (o : Options) (c : Configuration) : Except ConfigurationFault Assembler :=
  c.format.map fun f => .new o.dialect f c.checkSize

/-- The input file as it is shown. -/
def shownInput (o : Options) : Text := Path.normal o.input

end Options

/-- A command goes on, or ends early with what the console shows and the failure. -/
abbrev Progress := Except (Console × Failure)

namespace Console

/-- A failure ends the command with what the console shows by then. -/
def attempt {α : Type} (c : Console) (r : Except Failure α) : Progress α := r.mapError (c, ·)

def configured (c : Console) (o : Options) (env : Environment) :
    Progress (Configuration × Assembler) :=
  c.attempt <| Except.mapError Failure.ofConfiguration do
    let configuration ← o.configure env
    let assembler ← o.assembler configuration
    return (configuration, assembler)

/-- Assembles the input file, logging. -/
def assembled (memory : Memory) (c : Console) (a : Assembler) (o : Options) :
    Progress (Console × Assembler) := do
  let c := c.log (a.fileLog c.verbose c.files o.input)
  let (result, a) := Capacity.assembleFile memory a c.files o.input
  let _ ← c.attempt result
  return (c, a)

end Console

end ManchesterBaby
