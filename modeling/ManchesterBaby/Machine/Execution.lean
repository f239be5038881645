import ManchesterBaby.Machine.Basic

/-! Execution. Every transition gives the next machine with its instruction fetched; a run takes
steps until a stop instruction is met or the budget is used up. -/

namespace ManchesterBaby

namespace Machine

/-- Moves the counter, modulo the store size, and fetches. -/
def goTo (m : Machine) (counter : Int) : Machine :=
  let a := Address.ofInt counter
  { m with counter := a.val, current := m.format.field m.store[a] }

def advance (m : Machine) : Machine := m.goTo (m.counter + 1)

def jump (m : Machine) (target : Int) : Machine := m.goTo target

def relativeJump (m : Machine) (offset : Int) : Machine := m.goTo (m.counter + offset)

def negate (m : Machine) (n : Int) : Machine :=
  { m with accumulator := m.format.toWord (-n) }.advance

def subtract (m : Machine) (n : Int) : Machine :=
  { m with accumulator := m.format.toWord (m.accumulator - n) }.advance

/-- The store is written before the next instruction is fetched from it. -/
def storeAt (m : Machine) (address : Int) : Machine :=
  { m with store := m.store.set (Address.ofInt address) m.accumulator }.advance

def test (m : Machine) : Machine := m.goTo (m.counter + if m.accumulator < 0 then 2 else 1)

/-- The effect of an instruction whose address holds `operand`; none for a stop. Data has no
effect at all. -/
def apply (m : Machine) (i : Instruction) (operand : Int) : Option Machine :=
  match i.kind with
  | .jump => some (m.jump operand)
  | .relativeJump => some (m.relativeJump operand)
  | .negate => some (m.negate operand)
  | .store => some (m.storeAt i.address)
  | .subtract => some (m.subtract operand)
  | .skipNextIfNegative => some m.test
  | .stop => none
  | .absoluteValue => some m

def step (m : Machine) : Option Machine := m.apply m.instruction m.operand

/-- Takes at most `n` steps. The flag tells that a stop instruction was met. -/
def advanceBy : Nat → Machine → Machine × Bool
  | 0, m => (m, false)
  | n + 1, m =>
    match m.step with
    | some next => next.advanceBy n
    | none => (m, true)

theorem advanceBy_add (a b : Nat) (m : Machine) :
    m.advanceBy (a + b) =
      if (m.advanceBy a).2 then m.advanceBy a else (m.advanceBy a).1.advanceBy b := by
  induction a generalizing m with
  | zero => simp [advanceBy]
  | succ a ih =>
    rw [Nat.add_right_comm]
    cases h : m.step with
    | none => simp [advanceBy, h]
    | some next => simp [advanceBy, h, ih]

end Machine

/-- A run that is cut short tells the machine that it has come to. -/
inductive Halt
  | stopped (address : Int)
  | exhausted (machine : Machine) (budget : Int)
deriving DecidableEq

namespace Machine

/-- A budget below zero allows no step. -/
def run (m : Machine) (budget : Int) : Machine × Halt :=
  let (final, stopped) := m.advanceBy budget.toNat
  (final, if stopped then .stopped final.counter else .exhausted final budget)

end Machine

end ManchesterBaby
