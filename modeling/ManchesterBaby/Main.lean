import ManchesterBaby.Command.Response
import ManchesterBaby.Command.Usage

/-! The program. Its first argument names the tool; the files that the others name are read
before the tool is asked for its answer, and what it has written is put back after it. -/

open ManchesterBaby

def environmentNames : List String :=
  ["BABY_WORD_BITS", "BABY_INSTRUCTION_BITS", "BABY_MAX_STEPS", "BABY_CHECK_SIZE"]

def readEnvironment : IO Environment :=
  environmentNames.filterMapM fun name => do
    return (← IO.getEnv name).map fun value => (name.toList, value.toList)

/-- The place that a path names from a directory on, and before it those on the way. -/
def placesOf (here : Path) (t : Text) : List Path × Path :=
  let step (s : List Path × Path) (segment : Text) := (s.1 ++ [s.2], s.2.next segment)
  (Path.segments t).foldl step ([], if t.head? = some '/' then [] else here)

def placeName (place : Path) : String :=
  String.ofList ('/' :: List.intercalate ['/'] place)

/-- Adds the directories on the way to a place, and what is there. -/
def readPlace (store : FileStore) (places : List Path × Path) : IO FileStore := do
  let here ← IO.currentDir
  let (way, place) := places
  let directories ← (way ++ [place]).filterM fun p => (here / placeName p).isDir
  let store := { store with directories := directories ++ store.directories }
  if directories.contains place || !(← (here / placeName place).pathExists) then
    return store
  return store.put place (← IO.FS.readBinFile (here / placeName place)).toList

/-- The paths that the arguments may name. -/
def pathsIn (tool : Tool) (args : List Text) : List Text :=
  match Arguments.read tool args with
  | .ok a => (a.operands ++ a.settings.map (·.2)).filter (!·.isEmpty)
  | .error _ => []

def readFiles (tool : Tool) (args : List Text) : IO FileStore := do
  let (_, here) := placesOf [] (← IO.currentDir).toString.toList
  ((pathsIn tool args).map (placesOf here)).foldlM readPlace ⟨here, [here], []⟩

def writeFiles (old new : FileStore) : IO Unit :=
  for (place, content) in new.files do
    if old.files.lookup place != some content then
      IO.FS.writeBinFile (placeName place) (ByteArray.mk content.toArray)

/-- The program makes no integer of more than half a gibibyte, and no column of more than 64 mebi
characters. -/
def host : Host := .standard ⟨some 0xFFFFFFFF, some 0x4000000⟩

def answer (tool : Tool) (args : List Text) : IO UInt32 := do
  let files ← readFiles tool args
  match tool.respond host (← readEnvironment) files args with
  | .help =>
    IO.print (String.ofList tool.help)
    return 0
  | .usage fault =>
    IO.eprint (String.ofList (tool.complaint fault))
    return 2
  | .report r =>
    writeFiles files r.files
    IO.print (String.ofList r.stdout)
    IO.eprint (String.ofList r.stderr)
    return .ofNat r.exitCode

def main (args : List String) : IO UInt32 :=
  match args with
  | "babyasm" :: rest => answer .assembler (rest.map String.toList)
  | "babyrun" :: rest => answer .runner (rest.map String.toList)
  | _ => do
    IO.eprintln "The first argument must be babyasm or babyrun."
    return 2
