import ManchesterBaby.Capacity.Size
import ManchesterBaby.Configuration
import ManchesterBaby.Diagnostic
import ManchesterBaby.FileStore
import ManchesterBaby.Machine.Basic

/-! Everything that can keep a command from its result, and how it is reported. -/

namespace ManchesterBaby

/-- `unwritable` is a number that is too long to be written in decimal. -/
inductive Failure
  | diagnostic (d : Diagnostic)
  | image (e : ImageTooLong)
  | configuration (fault : ConfigurationFault)
  | file (fault : FileFault) (path : Text)
  | undecodable (fault : Utf8.Fault)
  | size (fault : SizeFault)
  | unwritable
deriving DecidableEq

/-- The kinds of failure that a report tells apart. -/
inductive Category
  | program
  | machine
  | configuration
  | input
  | internal
deriving DecidableEq

namespace Category

def exitCode : Category → Nat
  | program => 1
  | machine => 1
  | configuration => 2
  | input => 2
  | internal => 3

/-- What stands before the failure's text. `activity` says what was going on. -/
def heading (activity : Text) : Category → Text
  | program => []
  | machine => if activity.isEmpty then "Error: ".toList else activity ++ " error: ".toList
  | configuration => "Configuration error: ".toList
  | input => "Error: ".toList
  | internal => "Internal error: ".toList

end Category

namespace Failure

def category : Failure → Category
  | diagnostic _ => .program
  | image _ => .machine
  | configuration _ => .configuration
  | file .missing _ => .input
  | file _ _ => .internal
  | undecodable _ => .internal
  | size _ => .internal
  | unwritable => .internal

def text : Failure → Text
  | diagnostic d => d.text
  | image e => e.text
  | configuration fault => fault.text
  | file fault path => fault.text path
  | undecodable fault => fault.text
  | size fault => fault.text
  | unwritable =>
    ("Exceeds the limit (4300 digits) for integer string conversion; " ++
      "use sys.set_int_max_str_digits() to increase the limit").toList

/-- What is in the way of the blanks before the caret of a report. -/
def excerptFault? (memory : Memory) (n : Note) : Option SizeFault :=
  match n.location, n.source with
  | some l, some _ =>
    if 0 < l.column then memory.lengthFault? (l.column + 3) .indexTooLarge else none
  | _, _ => none

/-- A diagnostic whose report is too long is reported as just that. -/
def ofDiagnostic (memory : Memory) (d : Diagnostic) : Failure :=
  match excerptFault? memory d.note with
  | some fault => size fault
  | none => diagnostic d

/-- A fault whose text cannot be written is reported as just that. -/
def ofConfiguration (fault : ConfigurationFault) : Failure :=
  if fault.isWritable then configuration fault else unwritable

end Failure

namespace FileStore

/-- The file's text, with all line ends made line feeds. -/
def readText (s : FileStore) (path : Text) : Except Failure Text :=
  match s.read (Path.normal path) with
  | .error fault => .error (.file fault (Path.normal path))
  | .ok octets =>
    match Utf8.decode octets with
    | .error fault => .error (.undecodable fault)
    | .ok text => .ok text.unifyLineEnds

def writeText (s : FileStore) (path text : Text) : Except Failure FileStore :=
  (s.write (Path.normal path) (Utf8.encode text)).mapError (.file · (Path.normal path))

end FileStore

end ManchesterBaby
