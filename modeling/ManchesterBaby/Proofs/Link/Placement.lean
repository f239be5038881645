import ManchesterBaby.Proofs.Link.Resolution

/-! Linking does not look at places. When the lines of a program move, only the place of the
diagnostic moves with them, so what is linked depends on the statements alone. -/

namespace ManchesterBaby

/-- What has no place gets none. -/
structure Relocation where
  move : Option Location → Option Text → Option Location × Option Text
  move_none : move none none = (none, none)

def Placed.relocate {α : Type} (r : Relocation) (p : Placed α) : Placed α :=
  ⟨p.item, (r.move p.location p.source).1, (r.move p.location p.source).2⟩

def Relocation.removal : Relocation := ⟨fun _ _ => (none, none), rfl⟩

/-- Statements that stand nowhere. -/
def unplacedLines (statements : List Statement) : List Line :=
  statements.map fun s => ⟨s, none, none⟩

variable (r : Relocation)

theorem taggedFrom_relocate (tag : Option Text) (lines : List Line) :
    taggedFrom tag (lines.map (Placed.relocate r)) =
      (taggedFrom tag lines).map fun e => (e.1, e.2.relocate r) := by
  fun_induction taggedFrom tag lines with
  | case1 => rfl
  | case2 tag name location source rest ih => exact ih
  | case3 tag e location source rest ih =>
    simp only [List.map_cons, Placed.relocate, taggedFrom]
    exact congrArg _ ih

theorem bindings_relocate (entries : List TaggedEntry) :
    bindings (entries.map fun e => (e.1, e.2.relocate r)) = bindings entries := by
  simp only [bindings, List.zipIdx_map, List.filterMap_map]
  rfl

theorem symbolTable_relocate (lines : List Line) :
    symbolTable (taggedEntries (lines.map (Placed.relocate r))) =
      symbolTable (taggedEntries lines) := by
  rw [taggedEntries, taggedFrom_relocate, symbolTable, bindings_relocate]
  rfl

theorem entriesOf_relocate (lines : List Line) :
    entriesOf (lines.map (Placed.relocate r)) = (entriesOf lines).map (Placed.relocate r) := by
  simp only [← map_snd_taggedEntries, taggedEntries, taggedFrom_relocate, List.map_map]
  rfl

theorem resolveEntry_relocate (symbols : SymbolTable) (e : Placed Entry) :
    resolveEntry symbols (e.relocate r) =
      (resolveEntry symbols e).mapError (Placed.relocate r) := by
  simp only [resolveEntry, Placed.relocate]
  cases e.item.resolve symbols <;> rfl

theorem link_relocate (f : WordFormat) (checkSize : Bool) (lines : List Line) :
    link f checkSize (lines.map (Placed.relocate r)) =
      (link f checkSize lines).mapError (Placed.relocate r) := by
  simp only [link_eq, symbolTable_relocate, entriesOf_relocate, List.length_map]
  split
  · simp only [Except.mapError, Placed.relocate, Fault.unplaced, r.move_none]
  · rw [List.mapM_map]
    simp only [Function.comp_def, resolveEntry_relocate, mapM_mapError]
    cases (entriesOf lines).mapM (resolveEntry (symbolTable (taggedEntries lines))) <;> rfl

/-- Places aside, linking lines is linking their statements. -/
theorem link_mapError_item (f : WordFormat) (checkSize : Bool) (lines : List Line) :
    (link f checkSize lines).mapError (·.item) =
      (link f checkSize (unplacedLines (lines.map (·.item)))).mapError (·.item) := by
  have h : unplacedLines (lines.map (·.item)) =
      lines.map (Placed.relocate Relocation.removal) := by
    rw [unplacedLines, List.map_map]
    rfl
  rw [h, link_relocate]
  cases link f checkSize lines <;> rfl

end ManchesterBaby
