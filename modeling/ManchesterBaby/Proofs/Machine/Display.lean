import ManchesterBaby.Machine.Display
import ManchesterBaby.Proofs.Mnemonic
import ManchesterBaby.Proofs.Numeral
import ManchesterBaby.Proofs.Text
import ManchesterBaby.Command.ControlSequence

/-! The reason of a halt and the dump of a machine have no control sequences in them, so they are
printed as they are. -/

namespace ManchesterBaby

theorem escape_notMem_decimal (n : Int) : escapeCharacter ∉ decimal n :=
  notMem_decimal (by decide) (by decide) n

theorem escape_notMem_hexadecimal (width : Nat) (n : Int) :
    escapeCharacter ∉ hexadecimal width n :=
  notMem_hexadecimal (by decide) (by decide) (by decide) width n

theorem Halt.escape_notMem_text (h : Halt) : escapeCharacter ∉ h.text := by
  cases h with
  | stopped address =>
    exact List.not_mem_append (by decide +kernel) (escape_notMem_hexadecimal 6 address)
  | exhausted _ budget =>
    refine List.not_mem_append (List.not_mem_append ?_ (escape_notMem_decimal budget)) ?_ <;>
      decide +kernel

namespace Machine

theorem escape_notMem_cell (m : Machine) (a : Address) : escapeCharacter ∉ m.cell a := by
  simp only [cell, List.mem_append, not_or]
  exact ⟨⟨⟨escape_notMem_hexadecimal 4 a, by decide⟩, escape_notMem_hexadecimal _ _⟩, by decide⟩

theorem escape_notMem_dumpRow (m : Machine) (row : Fin 8) : escapeCharacter ∉ m.dumpRow row := by
  refine notMem_intercalate (by decide) ?_
  rw [List.forall_mem_map]
  exact fun column _ => m.escape_notMem_cell _

theorem escape_notMem_dump (m : Machine) : escapeCharacter ∉ m.dump := by
  have hlines : ∀ l ∈ (List.finRange 8).map m.dumpRow, escapeCharacter ∉ l := by
    rw [List.forall_mem_map]
    exact fun row _ => m.escape_notMem_dumpRow row
  rw [dump]
  refine List.not_mem_append (notMem_intercalate (by decide) ?_) (by decide)
  rw [List.forall_mem_cons, List.forall_mem_cons]
  refine ⟨?_, ?_, hlines⟩
  · simp only [List.mem_append, not_or]
    exact ⟨⟨⟨⟨by decide +kernel, escape_notMem_hexadecimal _ _⟩, by decide +kernel⟩,
      escape_notMem_hexadecimal _ _⟩, by decide⟩
  · simp only [List.mem_append, not_or]
    exact ⟨⟨by decide +kernel, escape_notMem_hexadecimal _ _⟩, by decide +kernel⟩

theorem escape_notMem_traceLine (m : Machine) (step : Int) :
    escapeCharacter ∉ m.traceLine step := by
  have hm : escapeCharacter ∉ m.instruction.mnemonic := by
    have hk : escapeCharacter ∉ m.instruction.kind.mnemonic := by
      cases m.instruction.kind <;> decide +kernel
    have hs : ∀ n : Int, escapeCharacter ∉ ' ' :: decimal n := fun n =>
      List.not_mem_cons_of_ne_of_not_mem (by decide) (escape_notMem_decimal n)
    rw [Instruction.mnemonic_eq]
    refine List.not_mem_append hk ?_
    cases m.instruction.number? with
    | none => exact List.not_mem_nil
    | some n => exact hs n
  have hpadding : ∀ n, escapeCharacter ∉ List.replicate n ' ' := fun n h =>
    absurd (List.eq_of_mem_replicate h) (by decide)
  have hblanks : escapeCharacter ∉ "  ".toList := by decide +kernel
  have hacc : escapeCharacter ∉ "  acc=".toList := by decide +kernel
  simp only [traceLine, List.leftpad, List.rightpad, List.mem_append, not_or]
  exact ⟨⟨⟨⟨⟨⟨⟨hpadding _, escape_notMem_decimal step⟩, hblanks⟩,
    escape_notMem_hexadecimal 4 m.counter⟩, hblanks⟩, hm, hpadding _⟩, hacc⟩,
    escape_notMem_decimal m.accumulator⟩

end Machine

end ManchesterBaby
