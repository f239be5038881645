import Mathlib.Logic.Relation
import ManchesterBaby.Machine.Execution
import ManchesterBaby.Proofs.Codec
import ManchesterBaby.Proofs.Words

/-! Well-formed machines: all words are in range and the current instruction has been fetched from
where the counter points. Loading makes such a machine, and every transition keeps it one,
whatever integers it is given. -/

namespace ManchesterBaby

namespace Machine

inductive Move
  | step
  | jump (target : Int)
  | relativeJump (offset : Int)
  | negate (n : Int)
  | subtract (n : Int)
  | storeAt (address : Int)
  | test
  | apply (i : Instruction) (operand : Int)

/-- No machine comes of a move that meets a stop. -/
def move (m : Machine) : Move → Option Machine
  | .step => m.step
  | .jump target => some (m.jump target)
  | .relativeJump offset => some (m.relativeJump offset)
  | .negate n => some (m.negate n)
  | .subtract n => some (m.subtract n)
  | .storeAt address => some (m.storeAt address)
  | .test => some m.test
  | .apply i operand => m.apply i operand

def Moves (m next : Machine) : Prop := ∃ move, m.move move = some next

abbrev Reachable := Relation.ReflTransGen Moves

/-- What a machine holds apart from its counter and the instruction fetched. -/
structure HoldsWords (f : WordFormat) (m : Machine) : Prop where
  format_eq : m.format = f
  isWord_store : ∀ a : Address, f.IsWord (m.store.get a)
  isWord_accumulator : f.IsWord m.accumulator

structure WellFormed (f : WordFormat) (m : Machine) : Prop extends HoldsWords f m where
  fetched : ∃ a : Address, m.counter = a.val ∧ m.current = f.field (m.store.get a)

theorem address_instruction {m : Machine} (h : m.instruction.kind.hasAddress) :
    m.instruction.address = .ofInt m.current :=
  (Instruction.address_decode m.format m.current).trans (if_pos h)

theorem operand_eq {m : Machine} (h : m.instruction.kind.hasAddress) :
    m.operand = m.store.get (Address.ofInt m.current) :=
  congrArg m.store.get (address_instruction h)

theorem step_eq (m : Machine) :
    m.step =
      match m.instruction.kind with
      | .jump => some (m.jump (m.store.get (Address.ofInt m.current)))
      | .relativeJump => some (m.relativeJump (m.store.get (Address.ofInt m.current)))
      | .negate => some (m.negate (m.store.get (Address.ofInt m.current)))
      | .store => some (m.storeAt (Address.ofInt m.current))
      | .subtract => some (m.subtract (m.store.get (Address.ofInt m.current)))
      | .skipNextIfNegative => some m.test
      | .stop => none
      | .absoluteValue => some m := by
  rw [step, apply]
  cases hk : m.instruction.kind with
  | jump | relativeJump | negate | subtract => simp only [operand_eq (m := m) (by rw [hk]; rfl)]
  | store => simp only [address_instruction (m := m) (by rw [hk]; rfl)]
  | skipNextIfNegative | stop | absoluteValue => rfl

variable {f : WordFormat} {m next : Machine}

theorem WellFormed.counter_val (h : WellFormed f m) :
    (Address.ofInt m.counter).val = m.counter := by
  obtain ⟨a, hc, -⟩ := h.fetched
  rw [hc, Address.ofInt_val]

theorem WellFormed.current_eq (h : WellFormed f m) :
    m.current = f.field (m.store.get (Address.ofInt m.counter)) := by
  obtain ⟨a, hc, hf⟩ := h.fetched
  simp only [hf, hc, Address.ofInt_val]

theorem HoldsWords.goTo (h : HoldsWords f m) (counter : Int) : WellFormed f (m.goTo counter) where
  format_eq := h.format_eq
  isWord_store := h.isWord_store
  isWord_accumulator := h.isWord_accumulator
  fetched := ⟨.ofInt counter, rfl, congrArg (WordFormat.field · _) h.format_eq⟩

theorem HoldsWords.withAccumulator (h : HoldsWords f m) {n : Int} (hn : f.IsWord n) :
    HoldsWords f { m with accumulator := n } :=
  ⟨h.format_eq, h.isWord_store, hn⟩

theorem HoldsWords.withStore (h : HoldsWords f m) (address : Address) {n : Int} (hn : f.IsWord n) :
    HoldsWords f { m with store := m.store.set address n address.isLt } := by
  refine ⟨h.format_eq, fun a => ?_, h.isWord_accumulator⟩
  by_cases ha : address = a
  · subst ha
    simpa [Store.get_eq_getElem] using hn
  · have hv : address.val ≠ a.val := fun he => ha (Fin.ext he)
    simpa [Store.get_eq_getElem, Vector.getElem_set, hv] using h.isWord_store a

theorem HoldsWords.negate (h : HoldsWords f m) (n : Int) : WellFormed f (m.negate n) :=
  (h.withAccumulator (h.format_eq ▸ WordFormat.isWord_toWord _ _)).goTo _

theorem HoldsWords.subtract (h : HoldsWords f m) (n : Int) : WellFormed f (m.subtract n) :=
  (h.withAccumulator (h.format_eq ▸ WordFormat.isWord_toWord _ _)).goTo _

theorem HoldsWords.storeAt (h : HoldsWords f m) (address : Int) :
    WellFormed f (m.storeAt address) :=
  (h.withStore _ h.isWord_accumulator).goTo _

theorem WellFormed.apply (h : WellFormed f m) {i : Instruction} {operand : Int}
    (hs : m.apply i operand = some next) : WellFormed f next := by
  have hw := h.toHoldsWords
  rw [Machine.apply] at hs
  cases hk : i.kind <;> simp only [hk, Option.some.injEq, reduceCtorEq] at hs <;> subst hs
  case jump => exact hw.goTo _
  case relativeJump => exact hw.goTo _
  case negate => exact hw.negate _
  case store => exact hw.storeAt _
  case subtract => exact hw.subtract _
  case skipNextIfNegative => exact hw.goTo _
  case absoluteValue => exact h

theorem WellFormed.step (h : WellFormed f m) (hs : m.step = some next) : WellFormed f next :=
  h.apply hs

theorem WellFormed.moves (h : WellFormed f m) (hs : Moves m next) : WellFormed f next := by
  have hw := h.toHoldsWords
  obtain ⟨move, hm⟩ := hs
  cases move <;> simp only [Machine.move, Option.some.injEq] at hm
  case step => exact h.step hm
  case jump => exact hm ▸ hw.goTo _
  case relativeJump => exact hm ▸ hw.goTo _
  case negate => exact hm ▸ hw.negate _
  case subtract => exact hm ▸ hw.subtract _
  case storeAt => exact hm ▸ hw.storeAt _
  case test => exact hm ▸ hw.goTo _
  case apply => exact h.apply hm

theorem WellFormed.reachable (h : WellFormed f m) (hr : Reachable m next) : WellFormed f next := by
  induction hr with
  | refl => exact h
  | tail _ hs ih => exact ih.moves hs

theorem WellFormed.advanceBy (h : WellFormed f m) (n : Nat) : WellFormed f (m.advanceBy n).1 := by
  induction n generalizing m with
  | zero => exact h
  | succ n ih =>
    rw [Machine.advanceBy]
    cases hs : m.step with
    | none => exact h
    | some next => exact ih (h.step hs)

theorem load_eq (f : WordFormat) {image : List Int} (h : image.length ≤ storeSize) :
    load f image = .ok (start f (.ofWords (image.map f.toWord))) :=
  if_neg (Nat.not_lt.mpr h)

theorem isWord_ofWords {words : List Int} (h : ∀ n ∈ words, f.IsWord n) (a : Address) :
    f.IsWord ((Store.ofWords words).get a) := by
  rw [Store.get_ofWords, List.getD_eq_getElem?_getD]
  cases hw : words[a.val]? with
  | none => exact f.isWord_zero
  | some n => exact h n (List.mem_of_getElem? hw)

theorem wellFormed_start {store : Store} (h : ∀ a : Address, f.IsWord (store.get a)) :
    WellFormed f (start f store) where
  format_eq := rfl
  isWord_store := h
  isWord_accumulator := f.isWord_zero
  fetched := ⟨0, rfl, rfl⟩

theorem ofOpcode?_current (h : WellFormed f m) :
    Kind.ofOpcode? (f.opcode m.current) = some m.instruction.kind := by
  rw [Kind.ofOpcode?_of_lt _ (f.opcode_lt _), instruction, h.format_eq]
  rfl

theorem toList_address (m : Machine) :
    m.store.toList[m.instruction.address.val]? = some m.operand := by
  simp [operand]

/-- Everything that is reached from a loaded machine is well-formed. Its next step reads inside the
store and decodes one of the eight opcodes. -/
theorem load_reachable_wellFormed (f : WordFormat) (image : List Int)
    (h : image.length ≤ storeSize) :
    ∃ loaded, load f image = .ok loaded ∧ ∀ m, Reachable loaded m →
      m.store.toList.length = storeSize ∧ WellFormed f m ∧
      m.store.toList[m.instruction.address.val]? = some m.operand ∧
      Kind.ofOpcode? (f.opcode m.current) = some m.instruction.kind := by
  refine ⟨_, load_eq f h, fun m hr => ?_⟩
  have hw : ∀ n ∈ image.map f.toWord, f.IsWord n := by simp [f.isWord_toWord]
  have hm := (wellFormed_start (isWord_ofWords hw)).reachable hr
  exact ⟨by simp [storeSize], hm, m.toList_address, ofOpcode?_current hm⟩

/-- A machine whose first word, a store to address zero, has overwritten itself. -/
theorem load_reachable_wellFormed_overwritten :
    [49152].length ≤ storeSize ∧ ∃ loaded next, load .standard [49152] = .ok loaded ∧
      ((loaded.subtract 1).jump 32).step = some next ∧ next.store.toList[0]? = some (-1) ∧
      WellFormed .standard next := by
  obtain ⟨loaded, hl, h⟩ := load_reachable_wellFormed .standard [49152] (by decide)
  have hs : ∃ next, ((loaded.subtract 1).jump 32).step = some next ∧
      next.store.toList[0]? = some (-1) := by
    cases hl
    exact ⟨_, rfl, rfl⟩
  obtain ⟨next, hn, hz⟩ := hs
  have hr : Reachable loaded next :=
    .tail (.tail (.single ⟨.subtract 1, rfl⟩) ⟨.jump 32, rfl⟩) ⟨.step, hn⟩
  exact ⟨by decide, loaded, next, hl, hn, hz, (h next hr).2.1⟩

end Machine

end ManchesterBaby
