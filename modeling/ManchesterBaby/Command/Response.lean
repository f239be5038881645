import ManchesterBaby.Command.Assembling
import ManchesterBaby.Command.Running

/-! What a tool answers to its arguments. -/

namespace ManchesterBaby

inductive Response
  | help
  | usage (fault : UsageFault)
  | report (r : Report)

namespace Tool

def versionLine (tool : Tool) : Text := tool.name ++ ", version 1.0.0\n".toList

def respond (host : Host) (tool : Tool) (env : Environment) (files : FileStore)
    (args : List Text) : Response :=
  match host.read tool files args with
  | .error fault => .usage fault
  | .ok .help => .help
  | .ok .version => .report ⟨0, tool.versionLine, [], files⟩
  | .ok (.work o) =>
    match tool with
    | assembler => .report (o.assembleReport host env files)
    | runner => .report (o.runReport host env files)

end Tool

end ManchesterBaby
