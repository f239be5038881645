import ManchesterBaby.Proofs.Outcome
import ManchesterBaby.Proofs.Text.Letters
import ManchesterBaby.Proofs.Text.Lines
import ManchesterBaby.Source.Reading

/-! The code of a source text: what each of its lines says once comments, margins and case are gone
and lines that say nothing are left out. Reading looks at nothing else, but for the places that it
gives. -/

namespace ManchesterBaby

/-- The line without its comment and its margins. -/
def Statement.body (line : Text) : Text := (stripComment line).trim

/-- Reads what is left of a line, in lower case. -/
def Dialect.readCode (d : Dialect) (code : Text) : Except Fault Statement :=
  match code with
  | ':' :: name => Statement.readTag name
  | 'a' :: 'b' :: 's' :: ' ' :: value => (Value.read value).map fun v => .entry (.data v)
  | _ => (d.readEntry code).map .entry

theorem Statement.read_eq_readCode (d : Dialect) (line : Text) :
    Statement.read d line = d.readCode (Statement.body line).lower := rfl

def codesOf (source : Text) : List Text :=
  (source.lines.filter (!isVoid ·)).map fun line => (Statement.body line).lower

theorem isVoid_eq (line : Text) : isVoid line = (Statement.body line).isEmpty := by
  rw [isVoid, Statement.body, Bool.eq_iff_iff, List.isEmpty_iff, Text.trim_eq_nil_iff]

/-- Places aside, reading a source text is reading its code. -/
theorem readSource_codesOf (d : Dialect) (file source : Text) :
    ((readSource d file source).map (·.map (·.item))).mapError (·.item) =
      (codesOf source).mapM d.readCode := by
  have hl : ∀ (location : Option Location) (line : Text),
      ((readLine d location line).map (·.item)).mapError (·.item) =
        d.readCode (Statement.body line).lower := by
    intro location line
    rw [← Statement.read_eq_readCode, readLine]
    cases Statement.read d line <;> rfl
  rw [readSource, map_mapM, ← mapM_mapError]
  simp only [hl]
  have hc : codesOf source = ((source.lines.zipIdx 1).filter fun x => !isVoid x.1).map
      fun x => (Statement.body x.1).lower := by
    conv_lhs => rw [codesOf, ← List.zipIdx_map_fst 1 source.lines, List.filter_map, List.map_map]
    rfl
  rw [hc, List.mapM_map]
  rfl

theorem codesOf_unifyLineEnds (source : Text) : codesOf source.unifyLineEnds = codesOf source := by
  rw [codesOf, Text.lines_unifyLineEnds, codesOf]

theorem codesOf_append {s t : Text} (h : Text.AtLineStart s ∨ Text.AtLineEnd t) :
    codesOf (s ++ t) = codesOf s ++ codesOf t := by
  rw [codesOf, Text.filter_lines_append rfl h, List.map_append]
  rfl

theorem codesOf_of_unbroken {line : Text} (h : Unbroken line) :
    codesOf line =
      if (Statement.body line).isEmpty then [] else [(Statement.body line).lower] := by
  rw [codesOf, Text.filter_lines_of_unbroken rfl h, ← isVoid_eq]
  cases hv : isVoid line <;> simp [hv]

end ManchesterBaby
