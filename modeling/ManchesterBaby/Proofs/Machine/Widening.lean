import Mathlib.Algebra.Order.Ring.Int
import ManchesterBaby.Capacity.Execution
import ManchesterBaby.Proofs.Machine.Effect
import ManchesterBaby.Proofs.Machine.Lockstep

/-! The same program in longer words. As long as every result fits the shorter words, nothing but
the results' wrapping would depend on their length, and there is nothing to wrap. -/

namespace ManchesterBaby

section Formats

variable {f g : WordFormat}

theorem WordFormat.field_congr (h : f.fieldBits = g.fieldBits) (n : Int) :
    g.field n = f.field n := by
  rw [field, field, fieldCount, fieldCount, h]

theorem Instruction.decode_congr (h : f.fieldBits = g.fieldBits) (n : Int) :
    decode g n = decode f n := by
  have hunit : g.opcodeUnit = f.opcodeUnit := by
    rw [WordFormat.opcodeUnit, WordFormat.opcodeUnit, WordFormat.opcodeShift,
      WordFormat.opcodeShift, h]
  rw [decode, decode, WordFormat.opcode, WordFormat.opcode, WordFormat.field_congr h, hunit]

theorem WordFormat.IsWord.widen {n : Int} (hn : f.IsWord n) (h : f.wordBits ≤ g.wordBits) :
    g.IsWord n := by
  have hpow : (2 : Int) ^ (f.wordBits - 1) ≤ 2 ^ (g.wordBits - 1) :=
    pow_le_pow_right₀ (by decide) (Nat.sub_le_sub_right h 1)
  obtain ⟨hl, hu⟩ := hn
  exact ⟨by omega, by omega⟩

end Formats

namespace Machine

def inFormat (g : WordFormat) (m : Machine) : Machine := { m with format := g }

/-- The exact result of the instruction, if it has one, is a word. -/
def ResultFits (f : WordFormat) (m : Machine) : Prop := ∀ n ∈ m.result?, f.IsWord n

instance (f : WordFormat) (m : Machine) : Decidable (m.ResultFits f) :=
  inferInstanceAs (Decidable (∀ n ∈ m.result?, f.IsWord n))

variable {f g : WordFormat} {m : Machine}

theorem instruction_inFormat (h : m.format.fieldBits = g.fieldBits) :
    (m.inFormat g).instruction = m.instruction :=
  Instruction.decode_congr h m.current

theorem operand_inFormat (h : m.format.fieldBits = g.fieldBits) :
    (m.inFormat g).operand = m.operand := by
  rw [operand, operand]
  simp only [instruction_inFormat h]
  rfl

theorem result?_inFormat (h : m.format.fieldBits = g.fieldBits) :
    (m.inFormat g).result? = m.result? := by
  rw [result?, result?, instruction_inFormat h, operand_inFormat h]
  rfl

theorem target_inFormat (h : m.format.fieldBits = g.fieldBits) :
    (m.inFormat g).target = m.target := by
  rw [target, target, instruction_inFormat h, operand_inFormat h]
  rfl

theorem goTo_inFormat (h : m.format.fieldBits = g.fieldBits) (n : Int) :
    (m.inFormat g).goTo n = (m.goTo n).inFormat g := by
  rw [goTo, goTo]
  simp only [inFormat, WordFormat.field_congr h]

/-- A result that fits is the same word in both formats. -/
theorem effect_inFormat (h : m.format.fieldBits = g.fieldBits)
    (hword : m.format.wordBits ≤ g.wordBits) (hfits : m.ResultFits m.format) :
    (m.inFormat g).effect = m.effect.inFormat g := by
  have hresult : m.result?.map g.toWord = m.result?.map m.format.toWord := by
    cases hr : m.result? with
    | none => rfl
    | some n =>
      have hn : m.format.IsWord n := hfits n hr
      rw [Option.map_some, Option.map_some, WordFormat.toWord_eq_self hn,
        WordFormat.toWord_eq_self (hn.widen hword)]
  rw [effect, effect]
  simp only [instruction_inFormat h, result?_inFormat h]
  simp only [inFormat, hresult]

theorem step_inFormat (h : m.format.fieldBits = g.fieldBits)
    (hword : m.format.wordBits ≤ g.wordBits) (hfits : m.ResultFits m.format) :
    (m.inFormat g).step = m.step.map (inFormat g) := by
  rw [step_eq_effect, step_eq_effect, instruction_inFormat h, target_inFormat h,
    effect_inFormat h hword hfits]
  by_cases hk : m.instruction.kind = .stop
  · simp [hk]
  · rw [if_neg hk, if_neg hk, Option.map_some]
    exact congrArg some (goTo_inFormat (m := m.effect) h _)

theorem after?_inFormat (hf : m.format = f) (hfield : f.fieldBits = g.fieldBits)
    (hword : f.wordBits ≤ g.wordBits) {n : Nat}
    (hfits : ∀ k < n, ∀ s, m.after? k = some s → s.ResultFits f) :
    ∀ k ≤ n, Option.Rel (fun s u => s.format = f ∧ u = s.inFormat g) (m.after? k)
      ((m.inFormat g).after? k) := by
  refine rel_after? (R := fun _ s u => s.format = f ∧ u = s.inFormat g) ⟨hf, rfl⟩ ?_
  rintro k hk s _ hs ⟨hf, rfl⟩
  have hstep : (s.inFormat g).step = s.step.map (inFormat g) := by
    subst hf
    exact step_inFormat hfield hword (hfits k hk s hs)
  rw [hstep]
  cases hn : s.step with
  | none => exact .none
  | some next => exact .some ⟨(Capacity.format_step hn).trans hf, rfl⟩

theorem start_inFormat (h : f.fieldBits = g.fieldBits) (store : Store) :
    start g store = (start f store).inFormat g := by
  simp only [start, inFormat, WordFormat.field_congr h]

/-- An image of short words runs in longer words as it does in its own, up to the first result that
does not fit. -/
theorem run_inFormat (hfield : f.fieldBits = g.fieldBits) (hword : f.wordBits ≤ g.wordBits)
    {image : List Int} (hlength : image.length ≤ storeSize) (himage : ∀ n ∈ image, f.IsWord n) :
    ∃ short long, load f image = .ok short ∧ load g image = .ok long ∧
      ∀ n : Nat, (∀ k < n, ∀ s, short.after? k = some s → s.ResultFits f) →
        (∀ k ≤ n, long.after? k = (short.after? k).map (inFormat g)) ∧
        long.run n = ((short.run n).1.inFormat g,
          (short.run n).2.withMachine ((short.run n).1.inFormat g)) := by
  have hshort : image.map f.toWord = image :=
    (List.map_congr_left fun n hn => WordFormat.toWord_eq_self (himage n hn)).trans image.map_id
  have hlong : image.map g.toWord = image :=
    (List.map_congr_left fun n hn =>
      WordFormat.toWord_eq_self ((himage n hn).widen hword)).trans image.map_id
  refine ⟨_, _, load_eq f hlength, load_eq g hlength, fun n hfits => ?_⟩
  rw [hshort] at hfits ⊢
  rw [hlong, start_inFormat hfield]
  have hrel := after?_inFormat rfl hfield hword hfits
  refine ⟨fun k hk => ?_, ?_⟩
  · have hk := hrel k hk
    cases hs : (start f (.ofWords image)).after? k with
    | none =>
      rw [hs, rel_none_left_iff] at hk
      exact hk
    | some s =>
      rw [hs, rel_some_left_iff] at hk
      obtain ⟨u, hu, -, rfl⟩ := hk
      exact hu
  · obtain ⟨hhalt, -, -, -, -, hfinal⟩ := rel_run (fun _ s u h => by rw [h.2]; rfl) hrel
    rw [hfinal.2] at hhalt
    exact Prod.ext hfinal.2 hhalt

/-- The words of the stop and of the store are negative in sixteen bits, and so stay in 32. -/
theorem run_inFormat_demonstration :
    let f : WordFormat := ⟨16, 16, by decide, by decide⟩
    let image : List Int := [16389, 8197, -16378, 16390, -8192, -5]
    f.fieldBits = WordFormat.standard.fieldBits ∧ f.wordBits ≤ WordFormat.standard.wordBits ∧
      image.length ≤ storeSize ∧ (∀ n ∈ image, f.IsWord n) ∧
      ∃ short long, load f image = .ok short ∧ load .standard image = .ok long ∧
        (∀ k < 9, ∀ s, short.after? k = some s → s.ResultFits f) ∧
        long.run (9 : Nat) = ((short.run (9 : Nat)).1.inFormat .standard, .stopped 4) := by
  intro f image
  have himage : ∀ n ∈ image, f.IsWord n := by decide
  obtain ⟨short, long, hshort, hlong, h⟩ :=
    run_inFormat (g := .standard) (f := f) rfl (by decide) (by decide) himage
  have hfits : ∀ k < 9, ∀ s ∈ short.after? k, s.ResultFits f := by
    cases hshort
    decide +kernel
  have hhalt : (short.run (9 : Nat)).2 = .stopped 4 := by
    cases hshort
    decide +kernel
  have hrun := (h 9 hfits).2
  rw [hhalt] at hrun
  exact ⟨rfl, by decide, by decide, himage, short, long, hshort, hlong, hfits, hrun⟩

end Machine

end ManchesterBaby
