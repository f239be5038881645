import ManchesterBaby.Text.Basic

/-! Breaking a text at a character or into lines, and the two-character line end. -/

namespace ManchesterBaby

def isLineBreak (c : Char) : Bool :=
  let n := c.toNat
  (10 ≤ n && n ≤ 13) || (28 ≤ n && n ≤ 30) || n == 0x85 || n == 0x2028 || n == 0x2029

namespace Text

def consFirst (c : Char) : List Text → List Text
  | [] => [[c]]
  | line :: lines => (c :: line) :: lines

/-- The pieces between the separators. -/
def pieces (separator : Char) (t : Text) : List Text :=
  t.foldr (fun c rest => if c = separator then [] :: rest else consFirst c rest) [[]]

theorem pieces_cons (separator c : Char) (t : Text) :
    pieces separator (c :: t) =
      if c = separator then [] :: pieces separator t else consFirst c (pieces separator t) := rfl

theorem pieces_of_not_mem {separator : Char} {t : Text} (h : separator ∉ t) :
    t.pieces separator = [t] := by
  induction t with
  | nil => rfl
  | cons c t ih =>
    simp only [List.mem_cons, not_or] at h
    rw [pieces_cons, if_neg (Ne.symm h.1), ih h.2, consFirst]

/-- The lines without their breaks. A break ends a line, so nothing follows a final break, and
a carriage return with the line feed after it is one break. -/
def lines : Text → List Text
  | [] => []
  | '\r' :: '\n' :: rest => [] :: lines rest
  | c :: rest => if isLineBreak c then [] :: lines rest else consFirst c (lines rest)

/-- Every line end written as a single line feed. -/
def unifyLineEnds : Text → Text
  | [] => []
  | '\r' :: '\n' :: rest => '\n' :: unifyLineEnds rest
  | c :: rest => (if c = '\r' then '\n' else c) :: unifyLineEnds rest

def joinLines (lines : List Text) : Text := List.intercalate ['\n'] lines

end Text

end ManchesterBaby
