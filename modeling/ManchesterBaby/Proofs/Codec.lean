import Mathlib.Data.Int.ModEq
import ManchesterBaby.Instruction

/-! What decoding looks at: the instruction field of a word, of which the opcode gives the kind and
the low five bits give the address. -/

namespace ManchesterBaby

theorem Address.ofInt_val (a : Address) : Address.ofInt a.val = a := by
  apply Fin.ext
  simp only [Address.ofInt]
  omega

theorem WordFormat.field_field (f : WordFormat) (word : Int) :
    f.field (f.field word) = f.field word :=
  Int.emod_emod_of_dvd word (dvd_refl _)

theorem WordFormat.field_emod (f : WordFormat) (word : Int) : f.field word % 32 = word % 32 := by
  have h : (32 : Int) ∣ f.fieldCount := by
    rw [f.fieldCount_eq]
    exact_mod_cast f.dvd_opcodeUnit.mul_left 8
  exact Int.emod_emod_of_dvd word h

namespace Instruction

theorem decode_field (f : WordFormat) (word : Int) : decode f (f.field word) = decode f word := by
  rw [decode, decode, WordFormat.opcode, WordFormat.opcode, f.field_field]

theorem decode_toWord (f : WordFormat) (word : Int) :
    decode f (f.toWord word) = decode f word := by
  rw [← decode_field, f.field_toWord, decode_field]

theorem kind_decode (f : WordFormat) (word : Int) :
    (decode f word).kind = .ofOpcode (f.opcode word) := rfl

theorem address_decode (f : WordFormat) (word : Int) :
    (decode f word).address =
      if (Kind.ofOpcode (f.opcode word)).hasAddress then .ofInt word else 0 := by
  have h := f.field_emod word
  rw [address, kind_decode]
  by_cases ha : (Kind.ofOpcode (f.opcode word)).hasAddress = true
  · rw [if_pos ha, if_pos ha, decode, ofOperand]
    simp only [ha, Bool.true_or, if_true, Address.ofInt, h, Int.emod_emod]
  · rw [if_neg ha, if_neg ha]

theorem address_ofOperand (kind : Kind) (operand : Int) :
    (ofOperand kind operand).address = if kind.hasAddress then .ofInt operand else 0 := by
  rw [address, ofOperand]
  by_cases h : kind.hasAddress = true <;> simp [h]

theorem decode_toWord_encode (f : WordFormat) {i : Instruction} (h : i.kind ≠ .absoluteValue) :
    (decode f (f.toWord (i.encode f))).kind = i.kind ∧
      (decode f (f.toWord (i.encode f))).address = i.address := by
  have hd : decode f (f.toWord (i.encode f)) = ofOperand i.kind i.address.val := by
    rw [decode_toWord, decode_encode f h]
  refine ⟨by rw [hd, ofOperand], ?_⟩
  rw [hd, address_ofOperand, Address.ofInt_val, address]
  by_cases ha : i.kind.hasAddress = true <;> simp [ha]

end Instruction

end ManchesterBaby
