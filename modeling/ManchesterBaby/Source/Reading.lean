import ManchesterBaby.Source.Statement

/-! Reading a whole program text, line by line. Blank lines and lines with only a comment are
passed over, and the first line that cannot be read ends the reading. -/

namespace ManchesterBaby

abbrev Line := Placed Statement

/-- The line without line feeds at its end. -/
def withoutFeeds (line : Text) : Text := (line.reverse.dropWhile (· == '\n')).reverse

def readLine (dialect : Dialect) (location : Option Location) (line : Text) :
    Except Diagnostic Line :=
  match Statement.read dialect line with
  | .ok s => .ok ⟨s, location, some (withoutFeeds line)⟩
  | .error f => .error ⟨f, location, some (withoutFeeds line)⟩

/-- The column of the first character that is not blank. -/
def firstColumn (line : Text) : Nat :=
  ((Statement.stripComment line).takeWhile isBlank).length + 1

def isVoid (line : Text) : Bool := (Statement.stripComment line).all isBlank

def readSource (dialect : Dialect) (file source : Text) : Except Diagnostic (List Line) :=
  ((source.lines.zipIdx 1).filter fun (line, _) => !isVoid line).mapM fun (line, number) =>
    readLine dialect (some ⟨file, number, firstColumn line⟩) line

end ManchesterBaby
