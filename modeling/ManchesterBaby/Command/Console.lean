import ManchesterBaby.Capacity.Assembly
import ManchesterBaby.Command.Host

/-! What a command has printed, logged and written so far, and how it ends. -/

namespace ManchesterBaby

inductive Level
  | debug
  | info
  | warning
deriving DecidableEq

def Level.name : Level → Text
  | debug => "DEBUG".toList
  | info => "INFO".toList
  | warning => "WARNING".toList

structure LogEntry where
  level : Level
  text : Text
deriving DecidableEq

/-- Details are logged only by a verbose command, which also names the levels. -/
def LogEntry.render (verbose : Bool) (e : LogEntry) : Text :=
  if verbose then e.level.name ++ ": ".toList ++ e.text ++ ['\n']
  else if e.level = .debug then []
  else e.text ++ ['\n']

structure Console where
  verbose : Bool
  stdout : Text
  stderr : Text
  files : FileStore

structure Report where
  exitCode : Nat
  stdout : Text
  stderr : Text
  files : FileStore

/-- The report of a failure. `activity` says what was going on. -/
def Category.report (host : Host) (activity : Text) (verbose : Bool) (category : Category)
    (text : Text) : Text :=
  host.shown (category.heading activity ++ text ++ ['\n']) ++
    if verbose && category = .internal then "Traceback (most recent call last):\n".toList else []

namespace Console

variable (host : Host)

def start (verbose : Bool) (files : FileStore) : Console := ⟨verbose, [], [], files⟩

/-- What is printed is up to the host. What is logged is not. -/
def print (c : Console) (t : Text) : Console := { c with stdout := c.stdout ++ host.shown t }

def say (c : Console) (t : Text) : Console := c.print host (t ++ ['\n'])

/-- Says something if the command is verbose. -/
def remark (c : Console) (t : Text) : Console := if c.verbose then c.say host t else c

def log (c : Console) (entries : List LogEntry) : Console :=
  { c with stderr := c.stderr ++ entries.flatMap (·.render c.verbose) }

def finish (c : Console) (exitCode : Nat) : Report := ⟨exitCode, c.stdout, c.stderr, c.files⟩

def fail (c : Console) (activity : Text) (f : Failure) : Report :=
  let text := f.category.report host activity c.verbose f.text
  { c with stderr := c.stderr ++ text }.finish f.category.exitCode

/-- Ends at a failure that nothing reports. What is told of it after its heading is left out. -/
def abort (c : Console) : Report :=
  { c with stderr := c.stderr ++ "Traceback (most recent call last):\n".toList }.finish 1

end Console

namespace Assembler

def redeclared (name : Text) (old new : Int) : LogEntry :=
  ⟨.debug, "Tag ".toList ++ name.quoted ++ " redeclared, moving from ".toList ++ decimal old ++
    " to ".toList ++ decimal new⟩

/-- An entry for every binding of a name that is bound already. -/
def redeclarations (table : SymbolTable) : List (Text × Int) → List LogEntry
  | [] => []
  | (name, position) :: rest =>
    let later := redeclarations (table.bind name position) rest
    match table.lookup name with
    | some old => redeclared name old position :: later
    | none => later

def linkLog (entries : List TaggedEntry) : List LogEntry :=
  redeclarations [] (bindings entries) ++
    [⟨.debug, "Symbol table: ".toList ++ decimal (symbolTable entries).length ++
      " tags over ".toList ++ decimal entries.length ++ " words".toList⟩]

def programLog (verbose : Bool) (file : Text) (p : Program) : List LogEntry :=
  let long : LogEntry :=
    ⟨.warning, "Program is ".toList ++ decimal p.length ++
      " words long; only the first 32 are loaded".toList⟩
  let done : LogEntry :=
    ⟨.info, "Assembled ".toList ++ file ++ ": ".toList ++ decimal p.length ++ " words, ".toList ++
      decimal p.symbols.length ++ " tags".toList⟩
  (if storeSize < p.length then [long] else []) ++ if verbose then [done] else []

/-- What is logged while a source is assembled. A source that cannot be read leaves nothing. -/
def sourceLog (a : Assembler) (verbose : Bool) (file source : Text) : List LogEntry :=
  match readSource a.dialect file source with
  | .error _ => []
  | .ok lines =>
    ⟨.debug, "Parsed ".toList ++ decimal lines.length ++ " lines from ".toList ++ file⟩ ::
      linkLog (taggedEntries lines) ++
      match link a.format a.checkSize lines with
      | .error _ => []
      | .ok p => programLog verbose file p

def fileLog (a : Assembler) (verbose : Bool) (files : FileStore) (path : Text) : List LogEntry :=
  match files.readText path with
  | .error _ => []
  | .ok source => a.sourceLog verbose (Path.normal path) source

end Assembler

end ManchesterBaby
