import ManchesterBaby.Text.Lines

/-! Terminal control sequences: an escape character and an opening bracket, parameters,
intermediate characters, and one final character. What a sequence without its final character
begins is plain text. -/

namespace ManchesterBaby

def escapeCharacter : Char := '\x1b'

def isParameter (c : Char) : Bool := 0x30 ≤ c.toNat && c.toNat ≤ 0x3F

def isIntermediate (c : Char) : Bool := 0x20 ≤ c.toNat && c.toNat ≤ 0x2F

def isFinal (c : Char) : Bool := 0x40 ≤ c.toNat && c.toNat ≤ 0x7E

namespace Text

/-- What is left of the text after an escape character, if a control sequence begins there. -/
def afterSequence? : Text → Option Text
  | '[' :: t =>
    match (t.dropWhile isParameter).dropWhile isIntermediate with
    | c :: rest => if isFinal c then some rest else none
    | [] => none
  | _ => none

/-- The text without its control sequences. No sequence holds a second escape character, so the
pieces between escape characters are looked at one by one. A sequence that forms only when
another has gone stays. -/
def withoutControlSequences (t : Text) : Text :=
  match t.pieces escapeCharacter with
  | [] => []
  | first :: others =>
    first ++ others.flatMap fun piece => piece.afterSequence?.getD (escapeCharacter :: piece)

theorem withoutControlSequences_of_not_mem {t : Text} (h : escapeCharacter ∉ t) :
    t.withoutControlSequences = t := by
  simp [withoutControlSequences, pieces_of_not_mem h]

end Text

end ManchesterBaby
