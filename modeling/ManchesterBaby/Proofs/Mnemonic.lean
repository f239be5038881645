import ManchesterBaby.Instruction

/-! The text of an instruction: the three letters of its kind and, unless it is bare, a number after
a space. -/

namespace ManchesterBaby

namespace Kind

theorem length_mnemonic (k : Kind) : k.mnemonic.length = 3 := by
  cases k <;> rfl

theorem mnemonic_solid (k : Kind) : ∀ c ∈ k.mnemonic, isBlank c = false := by
  have h : k.mnemonic.any isBlank = false := by cases k <;> decide
  simpa using h

theorem space_notMem_mnemonic (k : Kind) : ' ' ∉ k.mnemonic := fun hm =>
  Bool.noConfusion (k.mnemonic_solid ' ' hm)

theorem mnemonic_ne_nil (k : Kind) : k.mnemonic ≠ [] :=
  List.ne_nil_of_length_pos (k.length_mnemonic ▸ Nat.succ_pos 2)

end Kind

namespace Instruction

/-- The number that follows the mnemonic. -/
def number? (i : Instruction) : Option Int :=
  if i.kind = .absoluteValue then some i.operand
  else if i.kind.hasAddress then some i.address.val
  else none

theorem mnemonic_eq (i : Instruction) :
    i.mnemonic = i.kind.mnemonic ++ (i.number?.map fun n => ' ' :: decimal n).getD [] := by
  rw [mnemonic, number?]
  split
  · rfl
  · split
    · rfl
    · exact (List.append_nil _).symm

end Instruction

end ManchesterBaby
