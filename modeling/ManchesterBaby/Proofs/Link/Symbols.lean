import Mathlib.Data.List.Nodup
import ManchesterBaby.Link.Listing
import ManchesterBaby.Proofs.Link.Linking

/-! The symbol table of a linked program is one to one: no name stands in it twice, and no position
does. So it can be read in both directions. -/

namespace ManchesterBaby

namespace SymbolTable

variable {table : SymbolTable} {name : Text} {n : Int}

theorem lookup_eq_some_iff (h : table.names.Nodup) :
    table.lookup name = some n ↔ (name, n) ∈ table := by
  induction table with
  | nil => simp
  | cons s rest ih =>
    obtain ⟨other, k⟩ := s
    obtain ⟨hn, hr⟩ := List.nodup_cons.mp h
    by_cases he : name = other
    · subst he
      have hm : (name, n) ∉ rest := fun hm => hn (List.mem_map.mpr ⟨_, hm, rfl⟩)
      simp [hm, eq_comm]
    · simp [List.lookup_cons, he, beq_false_of_ne he, ih hr]

end SymbolTable

namespace Program

variable {p : Program} {f : WordFormat} {lines : List Line}

theorem LinkedFrom.lookup_eq_some_iff (h : p.LinkedFrom f lines) {name : Text} {n : Int} :
    p.symbols.lookup name = some n ↔ (name, n) ∈ p.symbols :=
  SymbolTable.lookup_eq_some_iff h.nodup_names

theorem LinkedFrom.eq_of_mem (h : p.LinkedFrom f lines) {s t : Text × Int} (hs : s ∈ p.symbols)
    (ht : t ∈ p.symbols) (he : s.2 = t.2) : s = t := by
  have hn : s.1 = t.1 :=
    h.eq_of_position s.1 t.1 s.2 (h.lookup_eq_some_iff.mpr hs)
      (h.lookup_eq_some_iff.mpr (he ▸ ht))
  exact Prod.ext hn he

theorem LinkedFrom.nodup_positions (h : p.LinkedFrom f lines) :
    (p.symbols.map (·.2)).Nodup :=
  (List.Nodup.of_map _ h.nodup_names).map_on fun _ hs _ ht he => h.eq_of_mem hs ht he

theorem LinkedFrom.position_of_mem (h : p.LinkedFrom f lines) {s : Text × Int}
    (hs : s ∈ p.symbols) : ∃ q : Nat, s.2 = q := by
  obtain ⟨q, hq, -⟩ := h.lastBoundAt s.1 s.2 (h.lookup_eq_some_iff.mpr hs)
  exact ⟨q, hq⟩

theorem LinkedFrom.tagAt?_eq_some_iff (h : p.LinkedFrom f lines) {name : Text} {n : Int} :
    p.tagAt? n = some name ↔ p.symbols.lookup name = some n := by
  rw [h.lookup_eq_some_iff, tagAt?, Option.map_eq_some_iff]
  constructor
  · rintro ⟨s, hs, rfl⟩
    have hp : s.2 = n := by simpa using List.find?_some hs
    exact hp ▸ List.mem_of_find?_eq_some hs
  · intro hm
    cases hf : p.symbols.find? (·.2 == n) with
    | none => simpa using List.find?_eq_none.mp hf _ hm
    | some s =>
      have hp : s.2 = n := by simpa using List.find?_some hf
      exact ⟨s, rfl, congrArg (·.1) (h.eq_of_mem (List.mem_of_find?_eq_some hf) hm hp)⟩

end Program

end ManchesterBaby
