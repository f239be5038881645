import ManchesterBaby.Numeral.Writing
import ManchesterBaby.Text.Lines

/-! What can be wrong with a program text, where it stands, and how it is reported: the message
after its location, the line with a caret under the column, and a hint. -/

namespace ManchesterBaby

/-- Lines and columns count from one. -/
structure Location where
  file : Text
  line : Int
  column : Int
deriving DecidableEq

def Location.text (l : Location) : Text :=
  l.file ++ ':' :: decimal l.line ++ ':' :: decimal l.column

/-- Something together with the place and the source line it comes from, where these are known. -/
structure Placed (α : Type) where
  item : α
  location : Option Location
  source : Option Text
deriving DecidableEq

/-- The parts of a report. -/
structure Note where
  message : Text
  hint : Option Text
  location : Option Location
  source : Option Text
deriving DecidableEq

namespace Note

def heading (n : Note) : Text :=
  match n.location with
  | some l => l.text ++ ": error: ".toList ++ n.message
  | none => "error: ".toList ++ n.message

/-- The source line, set in by four, and the caret. A column below one has none. -/
def excerpt (n : Note) : List Text :=
  match n.location, n.source with
  | some l, some source =>
    let caret := List.replicate (l.column + 3).toNat ' ' ++ ['^']
    ("    ".toList ++ source) :: if 0 < l.column then [caret] else []
  | _, _ => []

def hintLines (n : Note) : List Text :=
  match n.hint with
  | some hint => if hint.isEmpty then [] else ["hint: ".toList ++ hint]
  | none => []

def text (n : Note) : Text := Text.joinLines (n.heading :: n.excerpt ++ n.hintLines)

end Note

inductive Fault
  /-- `form` names the form of value that the text begins, if it begins one. -/
  | invalidValue (text : Text) (form : Option Text)
  | unknownInstruction (text : Text)
  /-- The text is a mnemonic that takes an operand, without one. -/
  | missingOperand (text mnemonic : Text)
  | invalidTagName (name : Text)
  | unknownTag (name : Text) (similar : List Text)
  | programTooLong (size capacity : Int)
  | nothingAssembled
deriving DecidableEq

namespace Fault

def message : Fault → Text
  | invalidValue text form =>
    let form := form.getD []
    text.quoted ++ " is not a valid ".toList ++ (if form.isEmpty then form else form ++ [' ']) ++
      "value".toList
  | unknownInstruction text => "the instruction ".toList ++ text.quoted ++ " is not known".toList
  | missingOperand text _ => "the instruction ".toList ++ text.quoted ++ " is not known".toList
  | invalidTagName name => "the tag name ".toList ++ name.quoted ++ " is invalid".toList
  | unknownTag name _ => "the tag reference ".toList ++ name.quoted ++ " is not declared".toList
  | programTooLong size capacity =>
    "the linked program is ".toList ++ decimal size ++ " words long, maximum ".toList ++
      decimal capacity
  | nothingAssembled => "no program has been assembled".toList

/-- No more than three similar names are offered. -/
def hint : Fault → Option Text
  | invalidValue _ form =>
    if (form.getD []).isEmpty then
      some "use 0x, 0d, 0o or 0b prefixed numbers, or $tag references".toList
    else none
  | missingOperand _ mnemonic => some (mnemonic.quoted ++ " needs an operand".toList)
  | invalidTagName _ => some "tag names must be non-empty and contain no whitespace".toList
  | unknownTag _ similar =>
    if similar.isEmpty then none
    else
      let names := List.intercalate ", ".toList ((similar.take 3).map Text.quoted)
      some ("did you mean ".toList ++ names ++ ['?'])
  | programTooLong _ _ => some "remove lines or split the program".toList
  | unknownInstruction _ | nothingAssembled => none

end Fault

abbrev Diagnostic := Placed Fault

namespace Diagnostic

def note (d : Diagnostic) : Note := ⟨d.item.message, d.item.hint, d.location, d.source⟩

def text (d : Diagnostic) : Text := d.note.text

end Diagnostic

def Fault.unplaced (f : Fault) : Diagnostic := ⟨f, none, none⟩

end ManchesterBaby
