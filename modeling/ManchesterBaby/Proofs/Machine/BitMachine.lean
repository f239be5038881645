import Mathlib.Tactic.IntervalCases
import ManchesterBaby.Proofs.Codec
import ManchesterBaby.Proofs.Machine.WellFormed

/-! A machine of bit patterns, which keeps no instruction and fetches each on demand. A machine of
signed integers runs in step with it. -/

namespace ManchesterBaby

structure BitMachine (f : WordFormat) where
  store : Vector (BitVec f.wordBits) 32
  accumulator : BitVec f.wordBits
  counter : Address

namespace BitMachine

variable {f : WordFormat}

def place (n : Nat) : Address := .ofInt n

/-- The top three bits of the instruction field. -/
def opcode (word : BitVec f.wordBits) : BitVec 3 := word.extractLsb' (f.fieldBits - 3) 3

def address (word : BitVec f.wordBits) : Address := place (word.toNat % 2 ^ 5)

def step (s : BitMachine f) : Option (BitMachine f) :=
  let word := s.store.get s.counter
  let operand := s.store.get (address word)
  let following := place (s.counter + 1)
  match opcode word with
  | 0b000#3 => some { s with counter := place operand.toNat }
  | 0b100#3 => some { s with counter := place (s.counter + operand.toNat) }
  | 0b010#3 => some { s with accumulator := -operand, counter := following }
  | 0b110#3 =>
    some { s with store := s.store.set (address word) s.accumulator, counter := following }
  | 0b001#3 | 0b101#3 =>
    some { s with accumulator := s.accumulator - operand, counter := following }
  | 0b011#3 => some { s with counter := place (s.counter + if s.accumulator.msb then 2 else 1) }
  | _ => none

/-- Takes at most `n` steps, and gives the address of the stop if one was met. -/
def run : Nat → BitMachine f → BitMachine f × Option Address
  | 0, s => (s, none)
  | n + 1, s =>
    match s.step with
    | some next => next.run n
    | none => (s, some s.counter)

def image (f : WordFormat) (m : Machine) : BitMachine f where
  store := m.store.map f.pattern
  accumulator := f.pattern m.accumulator
  counter := .ofInt m.counter

theorem toNat_opcode (f : WordFormat) (n : Int) : (opcode (f.pattern n)).toNat = f.opcode n := by
  have hu := f.opcodeUnit_pos
  have hf : n % (f.opcodeUnit * 8) = ((f.pattern n).toNat : Int) % (f.opcodeUnit * 8) := by
    have hd : (f.opcodeUnit * 8 : Int) ∣ f.wordCount := by
      rw [mul_comm]
      exact_mod_cast f.fieldCount_eq ▸ f.fieldCount_dvd_wordCount
    rw [WordFormat.toNat_pattern, WordFormat.toUnsigned, Int.emod_emod_of_dvd n hd]
  have hs : f.opcodeUnit = 2 ^ (f.fieldBits - 3) := Nat.one_shiftLeft _
  rw [WordFormat.opcode, WordFormat.field, f.fieldCount_eq, Nat.mul_comm, Int.natCast_mul,
    Nat.cast_ofNat, hf, opcode, BitVec.extractLsb'_toNat, Nat.shiftRight_eq_div_pow, ← hs]
  have hm := Nat.mod_mul_right_div_self (f.pattern n).toNat f.opcodeUnit 8
  have hc : ((f.pattern n).toNat : Int) % (f.opcodeUnit * 8) / f.opcodeUnit =
      ((f.pattern n).toNat / f.opcodeUnit % 8 : Nat) := by exact_mod_cast hm
  rw [hc, Int.toNat_natCast]

theorem opcode_pattern (f : WordFormat) (n : Int) :
    opcode (f.pattern n) = BitVec.ofNat 3 (f.opcode n) := by
  apply BitVec.eq_of_toNat_eq
  rw [toNat_opcode, BitVec.toNat_ofNat, Nat.mod_eq_of_lt (f.opcode_lt n)]

theorem place_eq_ofInt {n : Nat} {k : Int} (h : (n : Int) % 32 = k % 32) :
    place n = Address.ofInt k := by
  apply Fin.ext
  simp only [place, Address.ofInt]
  omega

theorem address_pattern (f : WordFormat) (n : Int) : address (f.pattern n) = Address.ofInt n := by
  have h := f.toNat_pattern_emod n
  exact place_eq_ofInt (by omega)

variable {m : Machine}

theorem image_goTo (counter : Int) :
    image f (m.goTo counter) = { image f m with counter := .ofInt counter } := by
  simp only [image, Machine.goTo, Address.ofInt_val]

theorem image_jump (n : Int) :
    image f (m.jump n) = { image f m with counter := place (f.pattern n).toNat } := by
  rw [Machine.jump, image_goTo, place_eq_ofInt (f.toNat_pattern_emod n)]

theorem image_relativeJump (n : Int) :
    image f (m.relativeJump n) =
      { image f m with counter := place ((image f m).counter + (f.pattern n).toNat) } := by
  have h := f.toNat_pattern_emod n
  have hp : place ((image f m).counter + (f.pattern n).toNat) = .ofInt (m.counter + n) := by
    apply place_eq_ofInt
    simp only [image, Address.ofInt]
    omega
  rw [Machine.relativeJump, image_goTo, hp]

theorem place_counter (k : Nat) : place ((image f m).counter + k) = .ofInt (m.counter + k) := by
  apply place_eq_ofInt
  simp only [image, Address.ofInt]
  omega

theorem image_advance :
    image f m.advance = { image f m with counter := place ((image f m).counter + 1) } := by
  rw [Machine.advance, image_goTo, place_counter]
  rfl

theorem image_negate (h : m.format = f) (n : Int) :
    image f (m.negate n) =
      { image f m with
        accumulator := -f.pattern n
        counter := place ((image f m).counter + 1) } := by
  subst h
  rw [Machine.negate, image_advance, ← WordFormat.pattern_neg, ← WordFormat.pattern_toWord]
  rfl

theorem image_subtract (h : m.format = f) (n : Int) :
    image f (m.subtract n) =
      { image f m with
        accumulator := (image f m).accumulator - f.pattern n
        counter := place ((image f m).counter + 1) } := by
  subst h
  rw [Machine.subtract, image_advance]
  simp only [image, WordFormat.pattern_toWord, WordFormat.pattern_sub]

theorem image_storeAt (a : Address) :
    image f (m.storeAt a.val) =
      { image f m with
        store := (image f m).store.set a (image f m).accumulator a.isLt
        counter := place ((image f m).counter + 1) } := by
  rw [Machine.storeAt, image_advance]
  simp only [image, Vector.map_set, Address.ofInt_val]

theorem image_test (h : f.IsWord m.accumulator) :
    image f m.test =
      { image f m with
        counter := place ((image f m).counter +
          if (image f m).accumulator.msb then 2 else 1) } := by
  have hs : (image f m).accumulator.msb = decide (m.accumulator < 0) := WordFormat.msb_pattern h
  rw [Machine.test, image_goTo, hs, place_counter]
  by_cases hn : m.accumulator < 0 <;> simp [hn]

theorem image_read (n : Int) :
    (image f m).store.get (Address.ofInt n) = f.pattern (m.store.get (Address.ofInt n)) :=
  Vector.getElem_map ..

/-- The pattern machine decodes the word at its counter just as the machine has fetched it. -/
theorem step_image (h : m.WellFormed f) : (image f m).step = m.step.map (image f) := by
  have hf := h.current_eq
  have hw : (image f m).store.get (image f m).counter =
      f.pattern (m.store.get (Address.ofInt m.counter)) :=
    image_read _
  have hi : m.instruction = .decode f (m.store.get (Address.ofInt m.counter)) := by
    rw [Machine.instruction, h.format_eq, hf, Instruction.decode_field]
  have ha : Address.ofInt m.current = .ofInt (m.store.get (Address.ofInt m.counter)) := by
    apply Fin.ext
    simp only [Address.ofInt, hf, f.field_emod]
  simp only [step, Machine.step_eq, hi, Instruction.kind_decode, ha, hw, address_pattern,
    opcode_pattern, image_read]
  have hk := f.opcode_lt (m.store.get (Address.ofInt m.counter))
  generalize f.opcode (m.store.get (Address.ofInt m.counter)) = k at hk
  interval_cases k
  · exact congrArg some (image_jump _).symm
  · exact congrArg some (image_subtract h.format_eq _).symm
  · exact congrArg some (image_negate h.format_eq _).symm
  · exact congrArg some (image_test h.isWord_accumulator).symm
  · exact congrArg some (image_relativeJump _).symm
  · exact congrArg some (image_subtract h.format_eq _).symm
  · exact congrArg some (image_storeAt _).symm
  · rfl

theorem run_image (h : m.WellFormed f) (n : Nat) :
    (image f m).run n =
      (image f (m.advanceBy n).1,
        if (m.advanceBy n).2 then some (.ofInt (m.advanceBy n).1.counter) else none) := by
  induction n generalizing m with
  | zero => rfl
  | succ n ih =>
    rw [run, step_image h, Machine.advanceBy]
    cases hs : m.step with
    | none => rfl
    | some next => exact ih (h.step hs)

/-- A run of a well-formed machine ends where the run of its bit patterns ends, and for the same
reason. -/
theorem run_agrees (h : m.WellFormed f) (budget : Nat) :
    ((image f m).run budget).1 = image f (m.run budget).1 ∧
      (m.run budget).2 =
        match ((image f m).run budget).2 with
        | some a => .stopped a.val
        | none => .exhausted (m.run budget).1 budget := by
  have hc := (h.advanceBy budget).counter_val
  simp only [run_image h, Machine.run, Int.toNat_natCast, true_and]
  cases (m.advanceBy budget).2 with
  | true => exact congrArg Halt.stopped hc.symm
  | false => rfl

theorem run_agrees_demonstration :
    let m := Machine.start .standard (.ofProgram .standard Machine.demonstration)
    m.WellFormed .standard ∧ ((image .standard m).run 9).1 = image .standard (m.run (9 : Nat)).1 ∧
      ((image .standard m).run 9).2 = some 4 ∧ (m.run (9 : Nat)).2 = .stopped 4 := by
  intro m
  have hm : m.WellFormed .standard :=
    Machine.wellFormed_start (Machine.isWord_ofWords (by simp [WordFormat.isWord_toWord]))
  have hs : ((image .standard m).run 9).2 = some 4 := by decide +kernel
  have hr := run_agrees hm 9
  rw [hs] at hr
  exact ⟨hm, hr.1, hs, hr.2⟩

end BitMachine

end ManchesterBaby
