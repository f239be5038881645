import ManchesterBaby.Command.Setup

/-! The command that assembles a file. The listing goes to a file or is printed; the symbols are
written only if a file is named for them. -/

namespace ManchesterBaby

namespace Console

variable (host : Host)

def listed (c : Console) (a : Assembler) : Option Text → Progress Console
  | none => do
    let listing ← c.attempt (Capacity.listing host.memory a)
    return c.print host listing
  | some path => do
    let files ← c.attempt (Capacity.writeListing host.memory a c.files path)
    return { c with files }.remark host ("Wrote listing to ".toList ++ Path.normal path)

def symbolsWritten (c : Console) (a : Assembler) : Option Text → Progress Console
  | none => return c
  | some path => do
    let files ← c.attempt (a.writeSymbols c.files path)
    return { c with files }.remark host ("Wrote symbols to ".toList ++ Path.normal path)

def concluded (c : Console) (a : Assembler) : Progress Console := do
  let words ← c.attempt a.length
  let symbols ← c.attempt a.symbols
  return c.remark host
    ("Assembly complete: ".toList ++ decimal words ++ " words, ".toList ++
      decimal symbols.length ++ " tags".toList)

end Console

namespace Options

variable (host : Host)

def assemble (o : Options) (env : Environment) (c : Console) : Progress Console := do
  let (_, a) ← c.configured o env
  let c := c.remark host ("Assembling ".toList ++ o.shownInput ++ "...".toList)
  let (c, a) ← c.assembled host.memory a o
  let c ← c.listed host a o.listing
  let c ← c.symbolsWritten host a o.symbols
  c.concluded host a

def assembleReport (o : Options) (env : Environment) (files : FileStore) : Report :=
  match o.assemble host env (.start o.verbose files) with
  | .ok c => c.finish 0
  | .error (c, f) => c.fail host "Assembly".toList f

end Options

end ManchesterBaby
