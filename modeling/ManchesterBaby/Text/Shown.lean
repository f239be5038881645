import ManchesterBaby.Numeral.Writing
import ManchesterBaby.Text.Invisible

/-! A text shown in quotes on one line, with escapes for what would not be seen. -/

namespace ManchesterBaby

def isInvisible (c : Char) : Bool := inRanges invisibleRanges c

def escapeDigits (width : Nat) (c : Char) : Text :=
  List.leftpad width '0' (Nat.toDigits 16 c.toNat)

def escapeCode (c : Char) : Text :=
  if c.toNat < 0x100 then 'x' :: escapeDigits 2 c
  else if c.toNat < 0x10000 then 'u' :: escapeDigits 4 c
  else 'U' :: escapeDigits 8 c

def showChar (quote c : Char) : Text :=
  if c = quote || c = '\x5c' then ['\x5c', c]
  else if c = '\t' then ['\x5c', 't']
  else if c = '\n' then ['\x5c', 'n']
  else if c = '\r' then ['\x5c', 'r']
  else if c.toNat < 32 || c.toNat = 127 || isInvisible c then '\x5c' :: escapeCode c
  else [c]

/-- Single quotes stand around the text, or double ones if it has single quotes only. -/
def Text.shown (t : Text) : Text :=
  let quote := if t.contains '\x27' && !t.contains '\x22' then '\x22' else '\x27'
  quote :: t.flatMap (showChar quote) ++ [quote]

end ManchesterBaby
