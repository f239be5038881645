import ManchesterBaby.FileStore
import ManchesterBaby.Numeral.Reading

/-! Command lines. Options may stand before, between and after operands; a lone pair of hyphens
ends them. Short options can be run together, and then the last of them may take a value. -/

namespace ManchesterBaby

inductive Tool
  | assembler
  | runner
deriving DecidableEq

def Tool.name : Tool → Text
  | assembler => "babyasm".toList
  | runner => "babyrun".toList

inductive Flag
  | historical
  | noSizeCheck
  | trace
  | verbose
  | help
  | version
deriving DecidableEq

/-- An option that takes a value. -/
inductive Setting
  | listing
  | symbols
  | wordBits
  | fieldBits
  | maxSteps
deriving DecidableEq

inductive UsageFault
  | unknownOption (name : Text)
  | missingValue
  | unexpectedValue (name : Text)
  | missingInput
  | extraOperand (operand : Text)
  | invalidNumber (value : Text)
  | noFile (path : Text)
  | isDirectory (path : Text)
deriving DecidableEq

namespace Tool

def longFlags : Tool → List (Text × Flag)
  | assembler =>
    [("original-notation".toList, .historical), ("no-size-check".toList, .noSizeCheck),
      ("verbose".toList, .verbose), ("version".toList, .version), ("help".toList, .help)]
  | runner =>
    [("original-notation".toList, .historical), ("trace".toList, .trace),
      ("verbose".toList, .verbose), ("version".toList, .version), ("help".toList, .help)]

def longSettings : Tool → List (Text × Setting)
  | assembler =>
    [("listing".toList, .listing), ("symbols".toList, .symbols), ("word-bits".toList, .wordBits),
      ("instruction-bits".toList, .fieldBits)]
  | runner =>
    [("max-steps".toList, .maxSteps), ("word-bits".toList, .wordBits),
      ("instruction-bits".toList, .fieldBits)]

def shortFlag? (c : Char) : Option Flag := if c = 'v' then some .verbose else none

def shortSetting? : Tool → Char → Option Setting
  | assembler, 'l' => some .listing
  | assembler, 's' => some .symbols
  | runner, 'n' => some .maxSteps
  | _, _ => none

end Tool

/-- What one argument is: flags, and last perhaps a setting, with its value if it has it. -/
inductive Argument
  | operand (text : Text)
  | terminator
  | plain (flags : List Flag)
  | valued (flags : List Flag) (setting : Setting) (value : Option Text)

namespace Argument

/-- A long option without its hyphens. -/
def readLong (tool : Tool) (t : Text) : Except UsageFault Argument :=
  let name := t.takeWhile (· != '=')
  let value := if t.contains '=' then some ((t.dropWhile (· != '=')).drop 1) else none
  match tool.longFlags.lookup name, tool.longSettings.lookup name with
  | some flag, _ => if value.isSome then .error (.unexpectedValue name) else .ok (.plain [flag])
  | none, some setting => .ok (.valued [] setting value)
  | none, none => .error (.unknownOption name)

/-- Short options without their hyphen. A setting takes the characters after it as its value. -/
def readShort (tool : Tool) : Text → Except UsageFault Argument
  | [] => .ok (.plain [])
  | c :: rest =>
    match Tool.shortFlag? c, tool.shortSetting? c with
    | some flag, _ =>
      (readShort tool rest).map fun
        | .plain flags => .plain (flag :: flags)
        | .valued flags setting value => .valued (flag :: flags) setting value
        | other => other
    | none, some setting => .ok (.valued [] setting (if rest.isEmpty then none else some rest))
    | none, none => .error (.unknownOption [c])

def read (tool : Tool) : Text → Except UsageFault Argument
  | ['-', '-'] => .ok .terminator
  | '-' :: '-' :: name => readLong tool name
  | '-' :: c :: rest => readShort tool (c :: rest)
  | t => .ok (.operand t)

end Argument

/-- The arguments sorted out, each sort in the order given. -/
structure Arguments where
  flags : List Flag
  settings : List (Setting × Text)
  operands : List Text

namespace Arguments

def addFlags (flags : List Flag) (a : Arguments) : Arguments := { a with flags := flags ++ a.flags }

def addSetting (s : Setting) (value : Text) (a : Arguments) : Arguments :=
  { a with settings := (s, value) :: a.settings }

def addOperand (t : Text) (a : Arguments) : Arguments := { a with operands := t :: a.operands }

def read (tool : Tool) : List Text → Except UsageFault Arguments
  | [] => .ok ⟨[], [], []⟩
  | t :: rest =>
    match Argument.read tool t with
    | .error fault => .error fault
    | .ok .terminator => .ok ⟨[], [], rest⟩
    | .ok (.operand t) => (read tool rest).map (addOperand t)
    | .ok (.plain flags) => (read tool rest).map (addFlags flags)
    | .ok (.valued flags s (some value)) =>
      (read tool rest).map fun a => (a.addSetting s value).addFlags flags
    | .ok (.valued flags s none) =>
      match rest with
      | [] => .error .missingValue
      | value :: rest => (read tool rest).map fun a => (a.addSetting s value).addFlags flags

def has (a : Arguments) (flag : Flag) : Bool := a.flags.contains flag

/-- The last value of a setting. -/
def value? (a : Arguments) (s : Setting) : Option Text := a.settings.reverse.lookup s

end Arguments

/-- What a tool is asked to do. -/
structure Options where
  input : Text
  listing : Option Text
  symbols : Option Text
  historical : Bool
  wordBits : Option Int
  fieldBits : Option Int
  maxSteps : Option Int
  checkSize : Bool
  trace : Bool
  verbose : Bool

inductive Request
  | help
  | version
  | work (options : Options)

namespace Request

def integer? (a : Arguments) (s : Setting) (least : Int) : Except UsageFault (Option Int) :=
  match a.value? s with
  | none => .ok none
  | some value =>
    match readInteger? value with
    | some n => if n < least then .error (.invalidNumber value) else .ok (some n)
    | none => .error (.invalidNumber value)

/-- A file to be written need not be there, but it must not be a directory. -/
def output? (files : FileStore) (a : Arguments) (s : Setting) : Except UsageFault (Option Text) :=
  match a.value? s with
  | none => .ok none
  | some path =>
    match files.stat path with
    | .ok .directory => .error (.isDirectory path)
    | _ => .ok (some path)

def input (files : FileStore) (a : Arguments) : Except UsageFault Text :=
  match a.operands with
  | [] => .error .missingInput
  | [path] =>
    match files.stat path with
    | .ok (.file _) => .ok path
    | .ok .directory => .error (.isDirectory path)
    | .error _ => .error (.noFile path)
  | _ :: operand :: _ => .error (.extraOperand operand)

def options (files : FileStore) (a : Arguments) : Except UsageFault Options := do
  return {
    input := ← input files a
    listing := ← output? files a .listing
    symbols := ← output? files a .symbols
    historical := a.has .historical
    wordBits := ← integer? a .wordBits 8
    fieldBits := ← integer? a .fieldBits 8
    maxSteps := ← integer? a .maxSteps 0
    checkSize := !a.has .noSizeCheck
    trace := a.has .trace
    verbose := a.has .verbose }

/-- Help and version, the first of them that is asked for, are answered before anything but the
form of the arguments is looked at. -/
def read (tool : Tool) (files : FileStore) (args : List Text) : Except UsageFault Request := do
  let a ← Arguments.read tool args
  match a.flags.find? fun flag => flag = .help || flag = .version with
  | some .version => return version
  | some _ => return help
  | none => return work (← options files a)

end Request

end ManchesterBaby
