import ManchesterBaby.Capacity.Execution
import ManchesterBaby.Proofs.Outcome

/-! What can be held. Nothing is in the way of a word that is not in the way of every word of its
format, and a column that is an index can be written in decimal. -/

namespace ManchesterBaby

variable {memory : Memory}

theorem Instruction.wordFault?_eq_none {f : WordFormat} (h : f.wordFault? memory = none)
    (i : Instruction) : i.wordFault? memory f = none := by
  have hs : f.opcodeShift ≤ f.wordBits := by
    have hf := f.fieldBits_le_wordBits
    rw [WordFormat.opcodeShift]
    omega
  have hp : memory.powerFault? f.opcodeShift = none := Memory.powerFault?_eq_none_of_le hs h
  rw [wordFault?, encodeFault?, hp, h]
  split <;> rfl

theorem Instruction.wordFault?_eq_none_iff {f : WordFormat} {i : Instruction} :
    i.wordFault? memory f = none ↔ f.wordFault? memory = none :=
  ⟨fun h => (Option.or_eq_none_iff.mp h).2, fun h => wordFault?_eq_none h i⟩

theorem findSome?_wordFault? (f : WordFormat) (program : List Instruction) :
    program.findSome? (·.wordFault? memory f) = program.head?.bind (·.wordFault? memory f) := by
  cases program with
  | nil => rfl
  | cons i rest =>
    rw [List.findSome?_cons, List.head?_cons, Option.bind_some]
    cases hi : i.wordFault? memory f with
    | some fault => rfl
    | none =>
      -- what the first meets nothing of, whole words included, is in the way of no other
      have hf := Instruction.wordFault?_eq_none_iff.mp hi
      exact List.findSome?_eq_none_iff.mpr fun j _ => Instruction.wordFault?_eq_none hf j

theorem fitsDecimal_of_le {n : Nat} (h : n ≤ largestIndex) : fitsDecimal n = true := by
  have hd : 19 ≤ decimalLimit := by decide
  rw [fitsDecimal, decide_eq_true_iff, Int.natAbs_natCast]
  generalize decimalLimit = k at hd ⊢
  calc n ≤ largestIndex := h
    _ < 10 ^ 19 := by decide
    _ ≤ 10 ^ k := Nat.pow_le_pow_right (by decide) hd

namespace Capacity

variable {width : Nat} {failure : Failure}

theorem require_eq_ok_iff {fault : Option SizeFault} : require fault = .ok () ↔ fault = none := by
  cases fault <;> simp [require]

theorem category_of_require {fault : Option SizeFault} (h : require fault = .error failure) :
    failure.category = .internal := by
  cases fault with
  | none => cases h
  | some fault =>
    cases h
    rfl

theorem column_eq_ok_iff :
    column memory width = .ok () ↔ memory.lengthFault? width .columnTooWide = none := by
  rw [column]
  split
  · exact require_eq_ok_iff
  · next hw =>
    have hn : memory.lengthFault? width .columnTooWide ≠ none := fun hl =>
      hw (fitsDecimal_of_le (Int.ofNat_le.mp (Memory.lengthFault?_eq_none_iff.mp hl).1))
    simp [hn]

theorem column_unlimited_eq_ok_iff : column .unlimited width = .ok () ↔ width ≤ largestIndex := by
  rw [column_eq_ok_iff, Memory.lengthFault?_eq_none_iff]
  simp [Memory.unlimited]

theorem category_of_column (h : column memory width = .error failure) :
    failure.category = .internal := by
  rw [column] at h
  split at h
  · exact category_of_require h
  · cases h
    rfl

theorem dump_eq_ok_iff {m : Machine} {t : Text} :
    dump memory m = .ok t ↔ (m.format.wordFault? memory = none ∧
      column memory (m.format.wordDigits + 2) = .ok ()) ∧ t = m.dump := by
  rw [dump, check_bind_eq_ok_iff, check_bind_eq_ok_iff, require_eq_ok_iff, pure_eq_ok_iff,
    and_assoc, @eq_comm _ m.dump]

end Capacity

end ManchesterBaby
