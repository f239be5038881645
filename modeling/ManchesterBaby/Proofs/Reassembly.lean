import ManchesterBaby.Proofs.Assembler.Layout
import ManchesterBaby.Proofs.Assembler.Reports
import ManchesterBaby.Proofs.Dialects
import ManchesterBaby.Proofs.Mnemonic

/-! Programs written out as their instructions are shown. This keeps the address of an operand, the
number of a reference, and no tags. The words are made of no more than that, so the text assembles
to the same words again. -/

namespace ManchesterBaby

/-- Puts the decimal marker before the number of an instruction's text. -/
def markNumber : Text → Text
  | [] => []
  | c :: rest => if c = ' ' then ' ' :: '0' :: 'd' :: rest else c :: markNumber rest

/-- The instructions as they are shown, one a line, with their numbers marked. -/
def Program.sourceText (p : Program) : Text :=
  Text.joinLines (p.instructions.map fun i => markNumber i.mnemonic)

namespace Instruction

/-- What is left of an instruction when it is shown. -/
def shown (i : Instruction) : Instruction := ⟨i.kind, i.number?.getD 0⟩

/-- The entry that the instruction is shown as. -/
def shownEntry (i : Instruction) : Entry :=
  if i.kind = .absoluteValue then .data (.literal i.operand)
  else .order i.kind (.literal (i.number?.getD 0))

end Instruction

theorem markNumber_append {t : Text} (h : ' ' ∉ t) (rest : Text) :
    markNumber (t ++ rest) = t ++ markNumber rest := by
  induction t with
  | nil => rfl
  | cons c t ih =>
    obtain ⟨hc, ht⟩ := not_or.mp (List.mem_cons.not.mp h)
    rw [List.cons_append, markNumber, if_neg (Ne.symm hc), ih ht]
    rfl

namespace Text

theorem lowerLetters_append (s t : Text) :
    lowerLetters (s ++ t) = lowerLetters s ++ lowerLetters t :=
  List.map_append

theorem joinLines_cons_cons (l m : Text) (ls : List Text) :
    joinLines (l :: m :: ls) = l ++ '\n' :: joinLines (m :: ls) := by
  rw [joinLines, List.intercalate_cons_cons, List.append_assoc]
  rfl

theorem lowerLetters_joinLines (ls : List Text) :
    lowerLetters (joinLines ls) = joinLines (ls.map lowerLetters) := by
  induction ls with
  | nil => rfl
  | cons l ls ih =>
    cases ls with
    | nil => simp [joinLines]
    | cons m ls =>
      rw [joinLines_cons_cons, lowerLetters_append]
      exact (congrArg (_ ++ '\n' :: ·) ih).trans (joinLines_cons_cons ..).symm

theorem lowerLetters_decimal (n : Int) : lowerLetters (decimal n) = decimal n := by
  have hd : ∀ d < 16, (Nat.digitChar d).toLower = Nat.digitChar d := by decide
  obtain ⟨ds, -, hds, -, ht⟩ := exists_digits .decimal n.natAbs
  have hn : lowerLetters (Nat.toDigits 10 n.natAbs) = Nat.toDigits 10 n.natAbs := by
    have ht : Nat.toDigits 10 n.natAbs = ds.map Nat.digitChar := ht
    rw [ht, lowerLetters, List.map_map]
    exact List.map_congr_left fun d hm => hd d ((hds d hm).trans_le Radix.decimal.base_le)
  rw [decimal, lowerLetters_append, hn, minus]
  split <;> rfl

end Text

namespace Instruction

theorem markNumber_mnemonic (i : Instruction) :
    markNumber i.mnemonic =
      i.kind.mnemonic ++ (i.number?.map fun n => ' ' :: '0' :: 'd' :: decimal n).getD [] := by
  rw [mnemonic_eq, markNumber_append i.kind.space_notMem_mnemonic]
  cases i.number? <;> rfl

/-- Case aside, an instruction is shown as its entry is written. -/
theorem lowerLetters_markNumber (i : Instruction) :
    (markNumber i.mnemonic).lowerLetters =
      (Statement.entry i.shownEntry).write .modern .decimal := by
  have hn : ∀ n : Int, Text.lowerLetters (' ' :: '0' :: 'd' :: decimal n) =
      ' ' :: Value.write .decimal (.literal n) := fun n =>
    congrArg (' ' :: '0' :: 'd' :: ·) (Text.lowerLetters_decimal n)
  rw [markNumber_mnemonic, Text.lowerLetters_append]
  obtain ⟨kind, operand⟩ := i
  cases kind with
  | skipNextIfNegative | stop => rfl
  | jump | relativeJump | negate | store | subtract | absoluteValue =>
    exact congrArg (_ ++ ·) (hn _)

theorem ofOperand_shown (i : Instruction) :
    .ofOperand i.shownEntry.kind (i.number?.getD 0) = i.shown := by
  obtain ⟨kind, operand⟩ := i
  cases kind <;> rfl

theorem address_shown (i : Instruction) : i.shown.address = i.address := by
  obtain ⟨kind, operand⟩ := i
  cases kind with
  | jump | relativeJump | negate | store | subtract => exact Address.ofInt_val _
  | skipNextIfNegative | stop | absoluteValue => rfl

theorem encode_shown (f : WordFormat) (i : Instruction) : i.shown.encode f = i.encode f := by
  have ha := i.address_shown
  obtain ⟨kind, operand⟩ := i
  cases kind with
  | absoluteValue => rfl
  | jump | relativeJump | negate | store | subtract | skipNextIfNegative | stop =>
    exact congrArg (fun address : Address => _ * (f.opcodeUnit : Int) + address.val) ha

theorem wordFault?_shown (memory : Memory) (f : WordFormat) (i : Instruction) :
    i.shown.wordFault? memory f = i.wordFault? memory f := rfl

theorem value_shownEntry (i : Instruction) : i.shownEntry.value = .literal (i.number?.getD 0) := by
  obtain ⟨kind, operand⟩ := i
  cases kind <;> rfl

theorem writable_shownEntry {i : Instruction} (h : i.isWritable = true) :
    (Statement.entry i.shownEntry).Writable .decimal := by
  have ha : ∀ a : Address, fitsDecimal a.val = true := fun a =>
    fitsDecimal_of_le (a.isLt.le.trans (by decide))
  obtain ⟨kind, operand⟩ := i
  cases kind with
  | absoluteValue => exact ⟨trivial, fun _ => by simpa [isWritable] using h⟩
  | skipNextIfNegative | stop => exact ⟨⟨Kind.noConfusion, fun _ => rfl⟩, fun _ => ha 0⟩
  | jump | relativeJump | negate | store | subtract =>
    exact ⟨wellFormed_of_hasAddress rfl _, fun _ => ha _⟩

end Instruction

theorem symbolTable_eq_nil {lines : List Line} (h : ∀ l ∈ lines, ∀ tag, l.item ≠ .tag tag) :
    symbolTable (taggedEntries lines) = [] := by
  have hb : bindings (taggedEntries lines) = [] := by
    rw [List.eq_nil_iff_forall_not_mem]
    rintro ⟨tag, n⟩ hm
    obtain ⟨-, -, before, line, entry, after, rfl, hl, -⟩ := mem_bindings_iff.mp hm
    exact h line (by simp) tag hl
  rw [symbolTable, hb]
  rfl

namespace Program

variable {p : Program}

/-- The statements that a program is written out as. -/
def shownStatements (p : Program) : List Statement :=
  p.instructions.map fun i => .entry i.shownEntry

/-- What comes of a program that is written out. -/
def shown (p : Program) : Program := ⟨p.instructions.map .shown, [], p.format⟩

theorem lowerLetters_sourceText (p : Program) :
    p.sourceText.lowerLetters = writeProgram .modern (fun _ => .decimal) p.shownStatements := by
  have hm : (p.shownStatements.mapIdx fun _ s => s.write .modern .decimal) =
      p.shownStatements.map fun s => s.write .modern .decimal :=
    List.ext_getElem (by simp) (by simp)
  rw [writeProgram, hm, sourceText, Text.lowerLetters_joinLines, shownStatements, List.map_map,
    List.map_map]
  exact congrArg Text.joinLines (List.map_congr_left fun i _ => i.lowerLetters_markNumber)

theorem writable_shownStatements (h : ∀ i ∈ p.instructions, i.isWritable = true) :
    WritableProgram (fun _ => .decimal) p.shownStatements := by
  intro s hs
  obtain ⟨i, hi, he⟩ := List.mem_map.mp (List.fst_mem_of_mem_zipIdx hs)
  rw [← he]
  exact Instruction.writable_shownEntry (h i hi)

theorem link_shownStatements {checkSize : Bool} (h : checkSize = true → p.length ≤ storeSize) :
    link p.format checkSize (unplacedLines p.shownStatements) = .ok p.shown := by
  have he : entriesOf (unplacedLines p.shownStatements) =
      p.instructions.map fun i => ⟨i.shownEntry, none, none⟩ := by
    rw [unplacedLines, shownStatements, List.map_map, entriesOf, List.filterMap_map]
    exact List.filterMap_eq_map_iff_forall_eq_some.mpr fun i _ => rfl
  refine link_eq_ok_iff.mpr ⟨?_, rfl, ?_, ?_⟩
  · rwa [he, List.length_map]
  · refine (symbolTable_eq_nil ?_).symm
    intro l hl tag ht
    obtain ⟨s, hs, rfl⟩ := List.mem_map.mp hl
    obtain ⟨i, -, rfl⟩ := List.mem_map.mp hs
    cases ht
  · rw [he, shown, List.forall₂_map_left_iff, List.forall₂_map_right_iff, List.forall₂_same]
    intro i _
    exact ⟨_, i.value_shownEntry ▸ .literal _, i.ofOperand_shown.symm⟩

theorem programFor_sourceText {a : Assembler} (hd : a.dialect = .modern) (hf : a.format = p.format)
    (hs : a.checkSize = true → p.length ≤ storeSize)
    (hw : ∀ i ∈ p.instructions, i.isWritable = true) (file : Text) :
    a.programFor file p.sourceText = .ok p.shown := by
  have hitems : (linesOf file p.shownStatements).map (·.item) = p.shownStatements :=
    List.ext_getElem (by simp [linesOf]) (by simp [linesOf])
  have hlink : link a.format a.checkSize (linesOf file p.shownStatements) = .ok p.shown := by
    rw [← mapError_eq_ok_iff (h := (·.item)), link_mapError_item, hitems, hf,
      link_shownStatements hs]
    rfl
  have hwritten := programFor_writeProgram a file (writable_shownStatements hw)
  rw [hlink, hd, mapError_eq_ok_iff] at hwritten
  rw [Assembler.programFor_eq_ok_iff, ← Text.codesOf_lowerLetters, lowerLetters_sourceText,
    ← Assembler.programFor_eq_ok_iff.mp hwritten]

theorem words_shown (p : Program) : p.shown.words = p.words := by
  rw [words, shown, List.map_map, words]
  exact List.map_congr_left fun i _ => congrArg p.format.toWord (i.encode_shown p.format)

theorem store_shown (p : Program) : p.shown.store = p.store :=
  congrArg Store.ofWords p.words_shown

end Program

namespace Capacity

theorem words_shown (memory : Memory) (p : Program) : words memory p.shown = words memory p := by
  have hw : ∀ i : Instruction, word memory p.format i.shown = word memory p.format i := fun i => by
    rw [word, i.wordFault?_shown, i.encode_shown, word]
  rw [words, Program.shown, List.mapM_map]
  exact congrArg (p.instructions.mapM ·) (funext hw)

theorem programStore_shown (memory : Memory) (p : Program) :
    programStore memory p.shown = programStore memory p := by
  have hf : p.shown.storeFault? memory = p.storeFault? memory := by
    rw [Program.storeFault?, Program.shown, List.head?_map, Option.bind_map]
    rfl
  rw [programStore_eq, programStore_eq, hf, p.store_shown]

end Capacity

/-- A program that has been linked, from whatever lines, can be assembled again from its
instructions as they are shown, if its values can be written at all. What comes of it, or keeps it
from being worked out, is the same, but for the tags. -/
theorem assemble_sourceText {memory : Memory} {a : Assembler} {lines : List Line} {p : Program}
    (hd : a.dialect = .modern) (h : link a.format a.checkSize lines = .ok p)
    (hw : ∀ i ∈ p.instructions, i.kind = .absoluteValue →
      (Nat.toDigits 10 i.operand.natAbs).length ≤ decimalLimit) (file : Text) :
    ∃ q, (Capacity.assemble memory a file p.sourceText).2.program = some q ∧
      q.symbols = [] ∧ q.length = p.length ∧ q.words = p.words ∧ q.store = p.store ∧
      Capacity.words memory q = Capacity.words memory p ∧
      (Capacity.assemble memory a file p.sourceText).1 = Capacity.programStore memory p := by
  have hwritable : ∀ i ∈ p.instructions, i.isWritable = true := by
    intro i hi
    rw [Instruction.isWritable, Bool.or_eq_true, bne_iff_ne, fitsDecimal_iff]
    exact or_iff_not_imp_left.mpr fun hk => hw i hi (not_not.mp hk)
  obtain ⟨hs, hf, -, hinstructions⟩ := link_eq_ok_iff.mp h
  have hlength : p.length = (entriesOf lines).length := hinstructions.length_eq.symm
  have hprogram :=
    Program.programFor_sourceText hd hf.symm (fun hc => hlength ▸ hs hc) hwritable file
  refine ⟨p.shown, ?_, rfl, List.length_map _, p.words_shown, p.store_shown,
    Capacity.words_shown memory p, ?_⟩
  · rw [Capacity.assemble_snd_program, hprogram]
    rfl
  · rw [Capacity.assemble_eq, hprogram]
    exact Capacity.programStore_shown memory p

/-- A negative operand, one beyond the addresses, a reference, and a value that is no word. -/
theorem assemble_sourceText_reducedOperands :
    let a := Assembler.new .modern ⟨9, 8, by decide, by decide⟩ true
    let lines := unplacedLines [.tag ['a'], .entry (.order .negate (.literal (-5))),
      .entry (.order .jump (.reference ['a'])), .entry (.order .store (.literal 100)),
      .entry (.bare .skipNextIfNegative), .entry (.data (.literal (-70000)))]
    let p : Program := ⟨[⟨.negate, -5⟩, ⟨.jump, 0⟩, ⟨.store, 100⟩, ⟨.skipNextIfNegative, 0⟩,
      ⟨.absoluteValue, -70000⟩], [(['a'], 0)], a.format⟩
    link a.format a.checkSize lines = .ok p ∧
      p.sourceText = "LDN 0d27\nJMP 0d0\nSTO 0d4\nCMP\nABS 0d-70000".toList ∧
      ∃ q, (Capacity.assemble .unlimited a [] p.sourceText).2.program = some q ∧
        q.symbols = [] ∧ q.length = 5 ∧ q.words = [91, 0, 196, 96, 144] ∧ q.store = p.store ∧
        (Capacity.assemble .unlimited a [] p.sourceText).1 = .ok p.store := by
  intro a lines p
  have h : link a.format a.checkSize lines = .ok p := by decide +kernel
  have hw : ∀ i ∈ p.instructions, i.kind = .absoluteValue →
      (Nat.toDigits 10 i.operand.natAbs).length ≤ decimalLimit := by decide +kernel
  obtain ⟨q, hq, hsymbols, hlength, hwords, hstore, -, himage⟩ :=
    assemble_sourceText rfl h hw []
  have hp : Capacity.programStore .unlimited p = .ok p.store :=
    Capacity.programStore_of_wordFault? (by decide)
  exact ⟨h, by decide +kernel, q, hq, hsymbols, hlength, hwords.trans (by decide +kernel), hstore,
    himage.trans hp⟩

end ManchesterBaby
