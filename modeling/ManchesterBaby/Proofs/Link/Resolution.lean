import ManchesterBaby.Link.Program
import ManchesterBaby.Proofs.Link.Bindings
import ManchesterBaby.Proofs.Outcome

/-! What linking makes of a program: every entry in its place, with the number that its value
denotes. -/

namespace ManchesterBaby

inductive Value.Denotes (lines : List Line) : Value → Int → Prop
  | literal (n : Int) : Denotes lines (.literal n) n
  | reference {tag : Text} {position : Nat} (h : LastBoundAt lines tag position) :
    Denotes lines (.reference tag) position

variable {lines : List Line} {f : WordFormat} {checkSize : Bool} {p : Program}

theorem Value.resolve_eq_ok_iff {v : Value} {n : Int} :
    v.resolve (symbolTable (taggedEntries lines)) = .ok n ↔ v.Denotes lines n := by
  cases v with
  | literal k =>
    simp only [Value.resolve, Except.ok.injEq]
    constructor
    · rintro rfl
      exact .literal k
    · rintro ⟨⟩
      rfl
  | reference tag =>
    have h := lookup_symbolTable_iff lines tag n
    constructor
    · intro hr
      rw [Value.resolve] at hr
      split at hr
      · next position hl =>
        cases hr
        obtain ⟨q, rfl, hq⟩ := h.mp hl
        exact .reference hq
      · cases hr
    · rintro ⟨⟩
      next position hq => rw [Value.resolve, h.mpr ⟨position, rfl, hq⟩]

theorem Entry.resolve_eq_ok_iff {e : Entry} {i : Instruction} :
    e.resolve (symbolTable (taggedEntries lines)) = .ok i ↔
      ∃ n, e.value.Denotes lines n ∧ i = .ofOperand e.kind n := by
  simp only [Entry.resolve, map_eq_ok_iff, Value.resolve_eq_ok_iff, eq_comm (a := i)]

theorem resolveEntry_eq_ok_iff {symbols : SymbolTable} {e : Placed Entry} {i : Instruction} :
    resolveEntry symbols e = .ok i ↔ e.item.resolve symbols = .ok i := by
  rw [resolveEntry]
  split <;> simp_all

theorem link_eq (f : WordFormat) (checkSize : Bool) (lines : List Line) :
    link f checkSize lines =
      if checkSize && storeSize < (entriesOf lines).length then
        .error (Fault.unplaced (.programTooLong (entriesOf lines).length storeSize))
      else
        ((entriesOf lines).mapM (resolveEntry (symbolTable (taggedEntries lines)))).map
          fun instructions => ⟨instructions, symbolTable (taggedEntries lines), f⟩ := by
  rw [link, ← map_snd_taggedEntries, List.length_map, List.mapM_map]
  rfl

theorem link_eq_ok_iff_mapM :
    link f checkSize lines = .ok p ↔
      (checkSize = true → (entriesOf lines).length ≤ storeSize) ∧
        p.format = f ∧ p.symbols = symbolTable (taggedEntries lines) ∧
        (entriesOf lines).mapM (resolveEntry (symbolTable (taggedEntries lines))) =
          .ok p.instructions := by
  obtain ⟨instructions, symbols, format⟩ := p
  rw [link_eq]
  by_cases hs : checkSize = true ∧ storeSize < (entriesOf lines).length
  · simp [hs.1, hs.2, Nat.not_le.mpr hs.2]
  · have hle : checkSize = true → (entriesOf lines).length ≤ storeSize :=
      fun hc => Nat.le_of_not_lt fun hlt => hs ⟨hc, hlt⟩
    simp only [Bool.and_eq_true, decide_eq_true_eq, hs, if_false, map_eq_ok_iff, Program.mk.injEq]
    constructor
    · rintro ⟨_, h, rfl, rfl, rfl⟩
      exact ⟨hle, rfl, rfl, h⟩
    · rintro ⟨-, rfl, rfl, h⟩
      exact ⟨_, h, rfl, rfl, rfl⟩

/-- An accepted program fits the store if its size is checked, and has the instruction of every
entry in order. -/
theorem link_eq_ok_iff :
    link f checkSize lines = .ok p ↔
      (checkSize = true → (entriesOf lines).length ≤ storeSize) ∧
        p.format = f ∧ p.symbols = symbolTable (taggedEntries lines) ∧
        List.Forall₂
          (fun e i => ∃ n, e.item.value.Denotes lines n ∧ i = .ofOperand e.item.kind n)
          (entriesOf lines) p.instructions := by
  simp only [link_eq_ok_iff_mapM, mapM_eq_ok_iff, resolveEntry_eq_ok_iff, Entry.resolve_eq_ok_iff]

end ManchesterBaby
