import ManchesterBaby.Instruction

/-! The state of the machine: a store of 32 words, the accumulator, the counter that holds the
address of the current instruction, and the instruction itself, already fetched. -/

namespace ManchesterBaby

def storeSize : Nat := 32

abbrev Store := Vector Int 32

namespace Store

/-- The first 32 words, with zeros after the last. -/
def ofWords (words : List Int) : Store := Vector.ofFn fun a => words.getD a 0

/-- The store that holds a program from address zero on. -/
def ofProgram (f : WordFormat) (program : List Instruction) : Store :=
  ofWords (program.map fun i => f.toWord (i.encode f))

theorem get_eq_getElem (s : Store) (a : Address) : s.get a = getElem s a.val a.isLt := rfl

theorem get_ofWords (words : List Int) (a : Address) : (ofWords words).get a = words.getD a 0 := by
  rw [get_eq_getElem]
  exact Vector.getElem_ofFn a.isLt

end Store

/-- The registers may hold any integers. Of a machine that was loaded, the counter is an address
and `current` is the instruction field of the word there. -/
structure Machine where
  format : WordFormat
  store : Store
  accumulator : Int
  counter : Int
  current : Int
deriving DecidableEq

/-- A memory image of `size` words does not fit a store of `capacity`. -/
structure ImageTooLong where
  size : Int
  capacity : Int
deriving DecidableEq

def ImageTooLong.text (e : ImageTooLong) : Text :=
  "memory image has ".toList ++ decimal e.size ++ " words, the main store holds ".toList ++
    decimal e.capacity

namespace Machine

def start (f : WordFormat) (store : Store) : Machine :=
  ⟨f, store, 0, 0, f.field store[0]⟩

def load (f : WordFormat) (image : List Int) : Except ImageTooLong Machine :=
  if storeSize < image.length then .error ⟨image.length, storeSize⟩
  else .ok (start f (.ofWords (image.map f.toWord)))

/-- Negates -5 into the accumulator, takes away -5, stores the ten and loads it back negated. -/
def demonstration : List Instruction :=
  [⟨.negate, 5⟩, ⟨.subtract, 5⟩, ⟨.store, 6⟩, ⟨.negate, 6⟩, ⟨.stop, 0⟩, ⟨.absoluteValue, -5⟩]

def instruction (m : Machine) : Instruction := .decode m.format m.current

/-- The word at the address of the current instruction. -/
def operand (m : Machine) : Int := m.store[m.instruction.address]

end Machine

end ManchesterBaby
