import ManchesterBaby.Proofs.CanonicalField
import ManchesterBaby.Proofs.Machine.WellFormed

/-! The effect of an instruction in parts. Every step but a stop works out at most one result,
stores at most one word and then goes to its target, so what it reads and what it leaves alone can
be said once for all kinds. -/

namespace ManchesterBaby

namespace Machine

/-- The exact result of the instruction, before it is made a word. -/
def result? (m : Machine) : Option Int :=
  match m.instruction.kind with
  | .negate => some (-m.operand)
  | .subtract => some (m.accumulator - m.operand)
  | _ => none

def StoresAt (m : Machine) (a : Address) : Prop :=
  m.instruction.kind = .store ∧ m.instruction.address = a

instance (m : Machine) (a : Address) : Decidable (m.StoresAt a) :=
  inferInstanceAs (Decidable (_ ∧ _))

/-- The instruction makes use of its operand, and finds it at `a`. -/
def ReadsAt (m : Machine) (a : Address) : Prop :=
  m.instruction.kind ∈ [.jump, .relativeJump, .negate, .subtract] ∧ m.instruction.address = a

instance (m : Machine) (a : Address) : Decidable (m.ReadsAt a) :=
  inferInstanceAs (Decidable (_ ∧ _))

/-- Where the counter is sent, before it is made an address. -/
def target (m : Machine) : Int :=
  match m.instruction.kind with
  | .jump => m.operand
  | .relativeJump => m.counter + m.operand
  | .skipNextIfNegative => m.counter + if m.accumulator < 0 then 2 else 1
  | _ => m.counter + 1

def withCell (m : Machine) (a : Address) (n : Int) : Machine :=
  { m with store := m.store.setIfInBounds a n }

/-- The machine after its instruction, but for the counter and the next instruction. -/
def effect (m : Machine) : Machine :=
  { m with
    accumulator := (m.result?.map m.format.toWord).getD m.accumulator
    store :=
      if m.instruction.kind = .store then
        m.store.setIfInBounds m.instruction.address m.accumulator
      else m.store }

theorem get_withCell (m : Machine) (a b : Address) (n : Int) :
    (m.withCell a n).store.get b = if a = b then n else m.store.get b := by
  simp [withCell, Store.get_eq_getElem, Vector.getElem_setIfInBounds, Fin.ext_iff]

theorem storeAt_eq (m : Machine) (a : Address) :
    m.storeAt a.val = (m.withCell a m.accumulator).advance := by
  have hset : m.store.set (Address.ofInt a.val) m.accumulator =
      m.store.setIfInBounds a m.accumulator := by
    apply Vector.ext
    intro i hi
    simp only [Address.ofInt_val, Vector.getElem_set, Vector.getElem_setIfInBounds]
  rw [storeAt, hset]
  rfl

theorem kind_ne_absoluteValue (m : Machine) : m.instruction.kind ≠ .absoluteValue :=
  Kind.ofOpcode_ne_absoluteValue _ (m.format.opcode_lt m.current)

theorem step_eq_effect (m : Machine) :
    m.step = if m.instruction.kind = .stop then none else some (m.effect.goTo m.target) := by
  have hdata := m.kind_ne_absoluteValue
  rw [step, apply]
  cases hk : m.instruction.kind with
  | jump => simp [effect, target, result?, hk, jump]
  | relativeJump => simp [effect, target, result?, hk, relativeJump]
  | negate => simp [effect, target, result?, hk, negate, advance]
  | store => simp [effect, target, result?, hk, storeAt_eq, withCell, advance]
  | subtract => simp [effect, target, result?, hk, subtract, advance]
  | skipNextIfNegative => simp [effect, target, result?, hk, test]
  | stop => simp
  | absoluteValue => exact absurd hk hdata

variable {m next : Machine}

theorem step_eq_some_iff :
    m.step = some next ↔ m.instruction.kind ≠ .stop ∧ m.effect.goTo m.target = next := by
  rw [step_eq_effect]
  by_cases h : m.instruction.kind = .stop <;> simp [h]

theorem get_store_effect (m : Machine) (a : Address) :
    m.effect.store.get a = if m.StoresAt a then m.accumulator else m.store.get a := by
  by_cases hk : m.instruction.kind = .store
  · have hstore : m.effect.store = (m.withCell m.instruction.address m.accumulator).store :=
      if_pos hk
    rw [hstore, get_withCell]
    simp only [StoresAt, hk, true_and]
  · have hstore : m.effect.store = m.store := if_neg hk
    rw [hstore, if_neg fun h => hk h.1]

theorem get_store_of_step (h : m.step = some next) (a : Address) :
    next.store.get a = if m.StoresAt a then m.accumulator else m.store.get a := by
  obtain ⟨-, rfl⟩ := step_eq_some_iff.mp h
  exact m.get_store_effect a

theorem accumulator_of_step (h : m.step = some next) :
    next.accumulator = (m.result?.map m.format.toWord).getD m.accumulator := by
  obtain ⟨-, rfl⟩ := step_eq_some_iff.mp h
  rfl

end Machine

end ManchesterBaby
