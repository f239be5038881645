import ManchesterBaby.Source.Value
import ManchesterBaby.Instruction
import ManchesterBaby.Text.LowerCase

/-! Statements and the two dialects they are written in: mnemonics, and the notation that was
used on the machine itself. Case does not matter; everything is read in lower case. -/

namespace ManchesterBaby

/-- A statement that takes up a word of the store. -/
inductive Entry
  | data (value : Value)
  | order (kind : Kind) (operand : Value)
deriving DecidableEq

/-- A tag names the entry that follows it. -/
inductive Statement
  | tag (name : Text)
  | entry (e : Entry)
deriving DecidableEq

inductive Dialect
  | modern
  | historical
deriving DecidableEq

def Entry.bare (kind : Kind) : Entry := .order kind (.literal 0)

def readOrder (kind : Kind) (operand : Text) : Except Fault Entry :=
  (Value.read operand).map (.order kind)

namespace Dialect

def modernBare : List (Text × Kind) :=
  [("cmp".toList, .skipNextIfNegative), ("stp".toList, .stop)]

def modernOrders : List (Text × Kind) :=
  [("jmp".toList, .jump), ("jrp".toList, .relativeJump), ("ldn".toList, .negate),
    ("sto".toList, .store), ("sub".toList, .subtract)]

/-- The mnemonic ends at the first space. What follows a mnemonic that takes no operand is not
looked at. -/
def readModern (t : Text) : Except Fault Entry :=
  let text := t.trim.lower
  let mnemonic := text.takeWhile (· != ' ')
  let operand := (text.dropWhile (· != ' ')).drop 1
  match modernBare.lookup mnemonic, modernOrders.lookup mnemonic with
  | some kind, _ => .ok (.bare kind)
  | none, some kind =>
    if operand.all isBlank then .error (.missingOperand text mnemonic) else readOrder kind operand
  | none, none => .error (.unknownInstruction text)

def historicalBare : List (Text × Kind) :=
  [("test".toList, .skipNextIfNegative), ("stop".toList, .stop)]

/-- An order of the historical notation: its operand stands between two fixed texts. -/
structure Form where
  opening : Text
  closing : Text
  kind : Kind

/-- The relative jump comes before the jump, which ends in the same way. -/
def historicalForms : List Form :=
  [⟨"add ".toList, ", cl".toList, .relativeJump⟩, ⟨[], ", cl".toList, .jump⟩,
    ⟨['-'], ", c".toList, .negate⟩, ⟨"c, ".toList, [], .store⟩, ⟨"sub ".toList, [], .subtract⟩]

def Form.operand? (f : Form) (t : Text) : Option Text :=
  let operand := (t.take (t.length - f.closing.length)).drop f.opening.length
  if f.opening.isPrefixOf t && f.closing.isSuffixOf t && !operand.all isBlank then some operand
  else none

/-- The first form that the text has, with a blank operand counting as none, decides. -/
def readHistorical (t : Text) : Except Fault Entry :=
  let text := t.trim.lower
  match historicalBare.lookup text with
  | some kind => .ok (.bare kind)
  | none =>
    match historicalForms.findSome? fun f => (f.operand? text).map (f.kind, ·) with
    | some (kind, operand) => readOrder kind operand
    | none => .error (.unknownInstruction text)

def readEntry : Dialect → Text → Except Fault Entry
  | modern => readModern
  | historical => readHistorical

end Dialect

namespace Statement

def readTag (t : Text) : Except Fault Statement :=
  let name := t.trim
  if isTagName name then .ok (.tag name) else .error (.invalidTagName name)

/-- A comment starts at the first semicolon. -/
def stripComment (line : Text) : Text := line.takeWhile (· != ';')

def read (dialect : Dialect) (line : Text) : Except Fault Statement :=
  let text := (stripComment line).trim.lower
  match text with
  | ':' :: name => readTag name
  | 'a' :: 'b' :: 's' :: ' ' :: value => (Value.read value).map fun v => .entry (.data v)
  | _ => (dialect.readEntry text).map .entry

end Statement

end ManchesterBaby
