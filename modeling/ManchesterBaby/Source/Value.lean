import ManchesterBaby.Diagnostic

/-! Values: numerals with the marker of their radix, and references to tags. -/

namespace ManchesterBaby

inductive Value
  | literal (n : Int)
  | reference (tag : Text)
deriving DecidableEq

def isTagName (name : Text) : Bool := !name.isEmpty && !name.any isBlank

namespace Value

/-- The rest of a numeral `whole` after its marker: a minus sign, if any, and digits. -/
def readLiteral (radix : Radix) (whole rest : Text) : Except Fault Value :=
  let (negative, digits) :=
    match rest with
    | '-' :: digits => (true, digits)
    | digits => (false, digits)
  match readDigits? radix digits with
  | some n => .ok (.literal (signed negative n))
  | none => .error (.invalidValue (if digits.isEmpty then whole else digits) (some radix.name))

def readReference (whole name : Text) : Except Fault Value :=
  if isTagName name then .ok (.reference name)
  else .error (.invalidValue whole (some "tag name".toList))

def read (t : Text) : Except Fault Value :=
  let whole := t.trim
  match whole with
  | '$' :: name => readReference whole name
  | '0' :: m :: rest =>
    match Radix.ofLetter? m with
    | some radix => readLiteral radix whole rest
    | none => .error (.invalidValue whole none)
  | _ => .error (.invalidValue whole none)

end Value

end ManchesterBaby
