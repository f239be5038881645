import ManchesterBaby.Proofs.Assembler.Capacity
import ManchesterBaby.Proofs.Link.Image
import ManchesterBaby.Proofs.Link.Linking
import ManchesterBaby.Proofs.Source.Reading

/-! What an assembly can end in. The lines are read before the program's size is looked at, the size
is looked at before any reference, and the words are worked out last. -/

namespace ManchesterBaby

/-- What can be wrong with a source text. Each has nothing wrong before it. -/
inductive Refusal (a : Assembler) (file source : Text) : Failure → Prop
  | rejected {before : List Text} {line : Text} {fault : Fault}
    (h : FirstRejected a.dialect source before line fault) :
    Refusal a file source
      (.diagnostic ⟨fault, some (placeOf file (before.length + 1) line), some line⟩)
  | tooLong {lines : List Line} (hr : ReadsAs a.dialect file source lines)
    (hs : a.checkSize = true ∧ storeSize < (entriesOf lines).length) :
    Refusal a file source
      (.diagnostic (Fault.unplaced (.programTooLong (entriesOf lines).length storeSize)))
  | unbound {lines : List Line} {d : Diagnostic} (hr : ReadsAs a.dialect file source lines)
    (hs : a.checkSize = false ∨ (entriesOf lines).length ≤ storeSize)
    (hu : FirstUnbound lines d) : Refusal a file source (.diagnostic d)
  | oversized {lines : List Line} (hr : ReadsAs a.dialect file source lines)
    (hs : a.checkSize = false ∨ (entriesOf lines).length ≤ storeSize)
    (hb : ∀ e ∈ entriesOf lines, e.item.value.IsBound lines) (hn : entriesOf lines ≠ [])
    (hw : largestExponent < a.format.wordBits) : Refusal a file source (.size .tooManyDigits)

variable {a : Assembler} {file source : Text} {lines : List Line}

/-- A shift by the width of a word is among the computations that a word takes, and no other shift
goes further. -/
theorem Instruction.wordFault?_unlimited (f : WordFormat) (i : Instruction) :
    i.wordFault? .unlimited f =
      if largestExponent < f.wordBits then some .tooManyDigits else none := by
  have hs : f.opcodeShift ≤ f.wordBits := by
    have hf := f.fieldBits_le_wordBits
    rw [WordFormat.opcodeShift]
    omega
  rw [wordFault?, encodeFault?, WordFormat.wordFault?]
  simp only [Memory.powerFault?_unlimited]
  split_ifs <;> first | rfl | omega

theorem programStore_of_link {p : Program} (h : link a.format a.checkSize lines = .ok p) :
    Capacity.programStore .unlimited p =
      if entriesOf lines ≠ [] ∧ largestExponent < a.format.wordBits then
        .error (.size .tooManyDigits)
      else .ok p.store := by
  obtain ⟨-, hf, -, hi⟩ := link_eq_ok_iff.mp h
  rw [Capacity.programStore_eq, Program.storeFault?, hf]
  simp only [Instruction.wordFault?_unlimited]
  generalize entriesOf lines = entries, p.instructions = instructions at hi
  cases hi with
  | nil => simp
  | cons => by_cases hw : largestExponent < a.format.wordBits <;> simp [hw]

theorem assemble_fst_of_rejected {d : Diagnostic}
    (h : readSource a.dialect file source = .error d) :
    (Capacity.assemble .unlimited a file source).1 = .error (.diagnostic d) := by
  rw [Capacity.assemble_eq, Assembler.programFor, h]
  rfl

theorem assemble_fst_of_read (h : readSource a.dialect file source = .ok lines) :
    (Capacity.assemble .unlimited a file source).1 =
      (link a.format a.checkSize lines).mapError .diagnostic >>=
        Capacity.programStore .unlimited := by
  rw [Capacity.assemble_eq, Assembler.programFor, h]
  rfl

theorem assemble_fst_of_linked {p : Program} (h : readSource a.dialect file source = .ok lines)
    (hp : link a.format a.checkSize lines = .ok p) :
    (Capacity.assemble .unlimited a file source).1 =
      if entriesOf lines ≠ [] ∧ largestExponent < a.format.wordBits then
        .error (.size .tooManyDigits)
      else .ok p.store := by
  rw [assemble_fst_of_read h, hp]
  exact programStore_of_link hp

theorem assemble_fst_of_refusal {failure : Failure} (h : Refusal a file source failure) :
    (Capacity.assemble .unlimited a file source).1 = .error failure := by
  cases h with
  | rejected h => exact assemble_fst_of_rejected (readSource_eq_error_iff.mpr ⟨_, _, _, h, rfl⟩)
  | tooLong hr hs =>
    rw [assemble_fst_of_read (readSource_eq_ok_iff.mpr hr),
      link_eq_error_iff.mpr (by rw [if_pos hs])]
    rfl
  | @unbound lines d hr hs hu =>
    have hl : link a.format a.checkSize lines = .error d := by
      rwa [link_eq_error_iff, if_neg (fits_iff.mp hs)]
    rw [assemble_fst_of_read (readSource_eq_ok_iff.mpr hr), hl]
    rfl
  | oversized hr hs hb hn hw =>
    obtain ⟨p, hp⟩ := exists_link_iff.mpr ⟨hs, hb⟩
    rw [assemble_fst_of_linked (readSource_eq_ok_iff.mpr hr) hp, if_pos ⟨hn, hw⟩]

theorem refusal_or_image (a : Assembler) (file source : Text) :
    (∃ failure, Refusal a file source failure) ∨
      ∃ p : Program, p.format = a.format ∧
        (Capacity.assemble .unlimited a file source).1 = .ok p.store := by
  cases hr : readSource a.dialect file source with
  | error d =>
    obtain ⟨before, line, fault, h, -⟩ := readSource_eq_error_iff.mp hr
    exact .inl ⟨_, .rejected h⟩
  | ok lines =>
    have hlines := readSource_eq_ok_iff.mp hr
    by_cases hs : a.checkSize = true ∧ storeSize < (entriesOf lines).length
    · exact .inl ⟨_, .tooLong hlines hs⟩
    · have hfits := fits_iff.mpr hs
      cases hl : link a.format a.checkSize lines with
      | error d =>
        rw [link_eq_error_iff, if_neg hs] at hl
        exact .inl ⟨_, .unbound hlines hfits hl⟩
      | ok p =>
        have ha := assemble_fst_of_linked hr hl
        by_cases hw : entriesOf lines ≠ [] ∧ largestExponent < a.format.wordBits
        · have hbound := (exists_link_iff.mp ⟨p, hl⟩).2
          exact .inl ⟨_, .oversized hlines hfits hbound hw.1 hw.2⟩
        · rw [if_neg hw] at ha
          exact .inr ⟨p, (link_eq_ok_iff.mp hl).2.1, ha⟩

/-- An assembly that never runs out of memory fails in the ways that are told, in their order and no
other, and gives an image of words where there is none. -/
theorem assemble_outcome (a : Assembler) (file source : Text) :
    (∀ failure, (Capacity.assemble .unlimited a file source).1 = .error failure ↔
      Refusal a file source failure) ∧
    ((∀ failure, ¬Refusal a file source failure) →
      ∃ image, (Capacity.assemble .unlimited a file source).1 = .ok image ∧
        ∀ n : Address, a.format.IsWord (image.get n)) := by
  constructor
  · intro failure
    constructor
    · intro h
      rcases refusal_or_image a file source with ⟨other, hr⟩ | ⟨p, -, hp⟩
      · have ho := assemble_fst_of_refusal hr
        rw [h] at ho
        exact Except.error.inj ho ▸ hr
      · rw [h] at hp
        cases hp
    · exact assemble_fst_of_refusal
  · intro hn
    rcases refusal_or_image a file source with ⟨failure, hr⟩ | ⟨p, hf, hp⟩
    · exact absurd hr (hn failure)
    · exact ⟨p.store, hp, hf ▸ p.isWord_store⟩

/-- The third line is refused for its operand although the fourth has a tag that is not bound. What
is left without the two is accepted. -/
theorem assemble_outcome_secondStatement :
    let a := Assembler.new .modern .standard true
    let file := "in".toList
    let refused := "\nstp\u000b \tjmp 5 ; five\nldn $z".toList
    let accepted := "\nstp ; five".toList
    let d : Diagnostic :=
      ⟨.invalidValue ['5'] none, some ⟨file, 3, 3⟩, some " \tjmp 5 ; five".toList⟩
    Refusal a file refused (.diagnostic d) ∧
      (∀ failure, ¬Refusal a file accepted failure) ∧
      ∃ image, (Capacity.assemble .unlimited a file accepted).1 = .ok image ∧
        ∀ n : Address, a.format.IsWord (image.get n) := by
  intro a file refused accepted d
  have hr : Refusal a file refused (.diagnostic d) :=
    ((assemble_outcome a file refused).1 _).mp (by decide +kernel)
  have hok : (Capacity.assemble .unlimited a file accepted).1 = .ok (.ofWords [57344]) := by
    decide +kernel
  have hn : ∀ failure, ¬Refusal a file accepted failure := by
    intro failure h
    have he := ((assemble_outcome a file accepted).1 failure).mpr h
    rw [hok] at he
    cases he
  exact ⟨hr, hn, (assemble_outcome a file accepted).2 hn⟩

/-- A single line that is right in every format, in one whose words have no representation. -/
theorem assemble_oversized :
    let a := Assembler.new .modern ⟨10 ^ 25, 16, by decide, by decide⟩ true
    (Capacity.assemble .unlimited a [] "stp".toList).1 = .error (.size .tooManyDigits) ∧
      (∀ d, (Capacity.assemble .unlimited a [] "stp".toList).1 ≠ .error (.diagnostic d)) ∧
      ∀ image, (Capacity.assemble .unlimited a [] "stp".toList).1 ≠ .ok image := by
  intro a
  have h : (Capacity.assemble .unlimited a [] "stp".toList).1 = .error (.size .tooManyDigits) := by
    decide +kernel
  refine ⟨h, ?_, ?_⟩
  · intro d hd
    rw [h] at hd
    cases hd
  · intro image hi
    rw [h] at hi
    cases hi

end ManchesterBaby
