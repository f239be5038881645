import ManchesterBaby.Source.Reading

/-! The symbol table. A tag is bound to the position of the entry directly after it, positions
counting entries only; when a name is bound again, the later position holds. -/

namespace ManchesterBaby

abbrev SymbolTable := List (Text × Int)

namespace SymbolTable

def names (t : SymbolTable) : List Text := t.map (·.1)

/-- A name that is there already keeps its place in the table. -/
def bind (name : Text) (position : Int) : SymbolTable → SymbolTable
  | [] => [(name, position)]
  | (n, p) :: rest =>
    if n = name then (n, position) :: rest else (n, p) :: bind name position rest

theorem lookup_bind (name other : Text) (position : Int) (t : SymbolTable) :
    (t.bind name position).lookup other =
      if other = name then some position else t.lookup other := by
  induction t with
  | nil => simp only [bind, List.lookup_cons, List.lookup_nil]; grind
  | cons s rest ih =>
    obtain ⟨n, p⟩ := s
    simp only [bind]
    split <;> simp only [List.lookup_cons] <;> grind

end SymbolTable

/-- An entry and the tag directly before it, if there is one. -/
abbrev TaggedEntry := Option Text × Placed Entry

/-- The entries in order. `tag` is the name that the line before these lines declares. -/
def taggedFrom (tag : Option Text) : List Line → List TaggedEntry
  | [] => []
  | ⟨.tag name, _, _⟩ :: rest => taggedFrom (some name) rest
  | ⟨.entry e, location, source⟩ :: rest =>
    (tag, ⟨e, location, source⟩) :: taggedFrom none rest

def taggedEntries (lines : List Line) : List TaggedEntry := taggedFrom none lines

/-- The names that are bound, with the positions, in order. -/
def bindings (entries : List TaggedEntry) : List (Text × Int) :=
  entries.zipIdx.filterMap fun (e, position) => e.1.map (·, (position : Int))

def SymbolTable.ofBindings (bindings : List (Text × Int)) : SymbolTable :=
  bindings.foldl (fun table b => table.bind b.1 b.2) []

def symbolTable (entries : List TaggedEntry) : SymbolTable := .ofBindings (bindings entries)

end ManchesterBaby
