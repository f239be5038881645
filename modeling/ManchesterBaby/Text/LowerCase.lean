import ManchesterBaby.Text.Basic
import ManchesterBaby.Text.Case

/-! Full lower-casing. Every code point is lowered on its own, but for the capital sigma, whose
small form depends on whether it ends a word. -/

namespace ManchesterBaby

def isCased (c : Char) : Bool := inRanges casedRanges c

def isCaseIgnored (c : Char) : Bool := inRanges ignoredRanges c

/-- The dotted capital I is the one code point whose small form takes two. -/
def lowerChar (c : Char) : Text :=
  if c = 'İ' then ['i', '\u0307'] else
  match caseRuns.find? (·.covers c.toNat) with
  | some r => [Char.ofNat (c.toNat + r.shift).toNat]
  | none => [c]

/-- A cased letter comes next, once the ignored marks are passed over. -/
def casedNext (t : Text) : Bool := ((t.dropWhile isCaseIgnored).head?.map isCased).getD false

namespace Text

/-- Lowers a text that follows `before`, which is given in reverse. -/
def lowerAfter (before : Text) : Text → Text
  | [] => []
  | c :: rest =>
    let small :=
      if c = 'Σ' then [if casedNext before && !casedNext rest then 'ς' else 'σ']
      else lowerChar c
    small ++ lowerAfter (c :: before) rest

def lower (t : Text) : Text := lowerAfter [] t

end Text

end ManchesterBaby
