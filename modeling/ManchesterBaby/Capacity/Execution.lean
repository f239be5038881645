import ManchesterBaby.Capacity.Codec
import ManchesterBaby.Machine.Display

/-! The machine, with the computations refused that cannot be held. Every transition takes an
instruction field, and results in the accumulator are made words. -/

namespace ManchesterBaby

namespace Capacity

/-- The words of the image are made before they are counted. -/
def load (memory : Memory) (f : WordFormat) (image : List Int) : Except Failure Machine := do
  require (if image.isEmpty then f.fieldFault? memory else f.wordFault? memory)
  (Machine.load f image).mapError .image

/-- What is in the way of the effect of an instruction. -/
def effectFault? (memory : Memory) (f : WordFormat) : Kind → Option SizeFault
  | .negate | .subtract => f.wordFault? memory
  | .jump | .relativeJump | .store | .skipNextIfNegative => f.fieldFault? memory
  | .stop | .absoluteValue => none

def apply (memory : Memory) (m : Machine) (i : Instruction) (operand : Int) :
    Except Failure (Option Machine) := do
  require (effectFault? memory m.format i.kind)
  return m.apply i operand

def step (memory : Memory) (m : Machine) : Except Failure (Option Machine) := do
  require (m.format.fieldFault? memory)
  apply memory m m.instruction m.operand

def advanceBy (memory : Memory) : Nat → Machine → Except Failure (Machine × Bool)
  | 0, m => .ok (m, false)
  | n + 1, m =>
    match step memory m with
    | .error f => .error f
    | .ok none => .ok (m, true)
    | .ok (some next) => advanceBy memory n next

def run (memory : Memory) (m : Machine) (budget : Int) : Except Failure (Machine × Halt) :=
  (advanceBy memory budget.toNat m).map fun (final, stopped) =>
    (final, if stopped then .stopped final.counter else .exhausted final budget)

def instruction (memory : Memory) (m : Machine) : Except Failure Instruction :=
  decode memory m.format m.current

/-- The first word is made before its column is. The column of the instruction is no wider. -/
def dump (memory : Memory) (m : Machine) : Except Failure Text := do
  require (m.format.wordFault? memory)
  column memory (m.format.wordDigits + 2)
  return m.dump

def traceLine (memory : Memory) (m : Machine) (step : Int) : Except Failure Text := do
  require (m.format.fieldFault? memory)
  if fitsDecimal m.accumulator then return m.traceLine step else throw .unwritable

/-- Takes at most `n` steps, with a line before each, and numbers them from `number` on. A line that
cannot be written ends it. -/
def traceFrom (memory : Memory) (budget : Int) :
    Nat → Nat → Machine → List Text × Except Failure (Machine × Halt)
  | 0, _, m => ([], .ok (m, .exhausted m budget))
  | n + 1, number, m =>
    match traceLine memory m number with
    | .error f => ([], .error f)
    | .ok line =>
      match step memory m with
      | .error f => ([line], .error f)
      | .ok none => ([line], .ok (m, .stopped m.counter))
      | .ok (some next) =>
        let (lines, result) := traceFrom memory budget n (number + 1) next
        (line :: lines, result)

/-- The lines of a traced run, and what it comes to. -/
def trace (memory : Memory) (m : Machine) (budget : Int) :
    List Text × Except Failure (Machine × Halt) :=
  traceFrom memory budget budget.toNat 0 m

variable {memory : Memory}

theorem effectFault?_eq_none {f : WordFormat} (h : f.wordFault? memory = none) (k : Kind) :
    effectFault? memory f k = none := by
  cases k <;> simp [effectFault?, h, WordFormat.fieldFault?_eq_none h]

/-- A format whose words can be held keeps no machine from its steps. -/
theorem step_eq {m : Machine} (h : m.format.wordFault? memory = none) :
    step memory m = .ok m.step := by
  simp only [step, apply, require, WordFormat.fieldFault?_eq_none h, effectFault?_eq_none h]
  rfl

theorem format_step {m next : Machine} (h : m.step = some next) : next.format = m.format := by
  rw [Machine.step, Machine.apply] at h
  split at h <;> cases h <;> rfl

theorem advanceBy_eq {m : Machine} (h : m.format.wordFault? memory = none) (n : Nat) :
    advanceBy memory n m = .ok (m.advanceBy n) := by
  induction n generalizing m with
  | zero => rfl
  | succ n ih =>
    rw [advanceBy, step_eq h, Machine.advanceBy]
    cases hs : m.step with
    | none => rfl
    | some next => exact ih (format_step hs ▸ h)

theorem run_eq {m : Machine} (h : m.format.wordFault? memory = none) (budget : Int) :
    run memory m budget = .ok (m.run budget) := by
  rw [run, advanceBy_eq h]
  rfl

end Capacity

end ManchesterBaby
