import ManchesterBaby.Text.Basic

/-! Likeness of two texts: twice the matched length over the total length, where the longest
common run is matched first and then, in the same way, what lies on either side of it. Names
that are like enough are offered, the likest first. -/

namespace ManchesterBaby.Similarity

/-- A run of `length` equal characters at `left` in one text and at `right` in the other. -/
structure Run where
  left : Nat
  right : Nat
  length : Nat

/-- In a long text a character that makes up more than a hundredth of it starts no run. -/
def isCommon (b : Text) (c : Char) : Bool :=
  200 ≤ b.length && b.length / 100 + 1 < b.count c

def commonChars (b : Text) : Text := b.eraseDups.filter (isCommon b)

/-- Where a character stands in a text whose first position is `j`. -/
def positions (c : Char) : (j : Nat) → Text → List Nat
  | _, [] => []
  | j, d :: b => if c = d then j :: positions c (j + 1) b else positions c (j + 1) b

/-- The runs that end at a character, as the position of their end on the right and their length,
by its positions and the runs that end at the character before it. -/
def extended : (above : List (Nat × Nat)) → (ends : List Nat) → List (Nat × Nat)
  | _, [] => []
  | above, j :: ends =>
    let above := above.dropWhile (·.1 + 1 < j)
    let n := match above with
      | (k, n) :: _ => if k + 1 = j then n else 0
      | [] => 0
    (j, n + 1) :: extended above ends

/-- The first run longer than `best` among those that end at position `i` on the left. -/
def improve (i : Nat) (best : Run) (runs : List (Nat × Nat)) : Run :=
  runs.foldl (fun best (j, n) =>
    if best.length < n then ⟨i + 1 - n, j + 1 - n, n⟩ else best) best

/-- The longest run of characters that may start one; of several the leftmost, on the left text
first. -/
def longestFrom (starts : Char → Bool) (b : Text) (i : Nat) (above : List (Nat × Nat))
    (best : Run) : Text → Run
  | [] => best
  | c :: rest =>
    let runs := if starts c then extended above (positions c 0 b) else []
    longestFrom starts b (i + 1) runs (improve i best runs) rest

def agreeing : Text → Text → Nat
  | c :: a, d :: b => if c = d then agreeing a b + 1 else 0
  | _, _ => 0

/-- The longest run, drawn out on both sides as far as the texts agree. -/
def longestRun (starts : Char → Bool) (a b : Text) : Run :=
  let core := longestFrom starts b 0 [] ⟨0, 0, 0⟩ a
  let back := agreeing (a.take core.left).reverse (b.take core.right).reverse
  let left := core.left - back
  let right := core.right - back
  let length := back + core.length
  ⟨left, right, length + agreeing (a.drop (left + length)) (b.drop (right + length))⟩

def matched (starts : Char → Bool) (a b : Text) : Nat :=
  match longestRun starts a b with
  | ⟨left, right, length⟩ =>
    if _h : 0 < length ∧ left + length ≤ a.length then
      matched starts (a.take left) (b.take right) + length +
        matched starts (a.drop (left + length)) (b.drop (right + length))
    else 0
termination_by a.length
decreasing_by all_goals simp only [List.length_take, List.length_drop]; omega

/-- How like a candidate is to a name: twice the matched length over the total length. -/
structure Score where
  twice : Nat
  total : Nat

/-- Two empty texts are alike. -/
def score (candidate name : Text) : Score :=
  if candidate.isEmpty && name.isEmpty then ⟨1, 1⟩
  else
    let common := commonChars name
    ⟨2 * matched (fun c => !common.contains c) candidate name, candidate.length + name.length⟩

/-- At least three fifths. -/
def Score.isClose (s : Score) : Bool := 3 * s.total ≤ 5 * s.twice

def Score.le (s t : Score) : Bool := s.twice * t.total ≤ t.twice * s.total

/-- The better score first, and of equal scores the greater text. -/
def ranksBefore (x y : Text × Score) : Bool :=
  if x.2.le y.2 then y.2.le x.2 && y.1.le x.1 else true

/-- At most three of the candidates, the closest to the name. -/
def closest (name : Text) (candidates : List Text) : List Text :=
  let scored := (candidates.map fun c => (c, score c name)).filter (·.2.isClose)
  ((scored.mergeSort ranksBefore).take 3).map (·.1)

end ManchesterBaby.Similarity
