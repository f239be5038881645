import ManchesterBaby.Assembler
import ManchesterBaby.Proofs.Codec
import ManchesterBaby.Proofs.Link.Resolution
import ManchesterBaby.Proofs.Source.WellFormed
import ManchesterBaby.Proofs.Words

/-! The image that is loaded reads back as the program: each word gives the kind of its entry and
the address that the operand stands for, or the data itself. -/

namespace ManchesterBaby

/-- What the word of an entry gives back. A tag is never reduced modulo the size of the store. -/
def Entry.ReadsBack (f : WordFormat) (lines : List Line) : Entry → Int → Prop
  | .order kind operand, word =>
    (Instruction.decode f word).kind = kind ∧
      if kind.hasAddress then
        match operand with
        | .literal n => (Instruction.decode f word).address.val = n % 32
        | .reference tag => LastBoundAt lines tag (Instruction.decode f word).address.val
      else (Instruction.decode f word).address.val = 0
  | .data (.literal n), word => word ≡ n [ZMOD 2 ^ f.wordBits]
  | .data (.reference tag), word =>
    ∃ position < 32, LastBoundAt lines tag position ∧ word = position

/-- Every entry has its word, and the words after the last are zero. -/
structure Store.ReadsBack (f : WordFormat) (lines : List Line) (image : Store) : Prop where
  fits : (entriesOf lines).length ≤ storeSize
  isWord : ∀ p : Address, f.IsWord (image.get p)
  word : ∀ p : Address,
    match (entriesOf lines)[p.val]? with
    | some e => e.item.ReadsBack f lines (image.get p)
    | none => image.get p = 0

variable {lines : List Line} {f : WordFormat}

theorem order_readsBack {kind : Kind} {operand : Value} {n : Int} (hk : kind ≠ .absoluteValue)
    (hn : operand.Denotes lines n) (hle : (entriesOf lines).length ≤ storeSize) :
    (Entry.order kind operand).ReadsBack f lines
      (f.toWord ((Instruction.ofOperand kind n).encode f)) := by
  obtain ⟨hd, ha⟩ := Instruction.decode_toWord_encode f (i := .ofOperand kind n) hk
  refine ⟨hd, ?_⟩
  rw [ha, Instruction.address_ofOperand]
  by_cases h : kind.hasAddress = true
  · rw [if_pos h, if_pos h]
    cases hn with
    | literal n =>
      simp only [Address.ofInt]
      omega
    | @reference tag position hb =>
      have hp : position < storeSize := hb.boundAt.lt.trans_le hle
      have hv : (Address.ofInt position).val = position := by
        simp only [Address.ofInt, storeSize] at hp ⊢
        omega
      simpa only [hv] using hb
  · rw [if_neg h, if_neg h]
    rfl

theorem data_readsBack {v : Value} {n : Int} (hn : v.Denotes lines n)
    (hle : (entriesOf lines).length ≤ storeSize) :
    (Entry.data v).ReadsBack f lines
      (f.toWord ((Instruction.ofOperand .absoluteValue n).encode f)) := by
  have he : (Instruction.ofOperand .absoluteValue n).encode f = n := rfl
  rw [he]
  cases hn with
  | literal n =>
    have h := f.toWord_modEq n
    rw [f.wordCount_eq_pow] at h
    exact_mod_cast h
  | @reference tag position hb =>
    have hp : position < storeSize := hb.boundAt.lt.trans_le hle
    have hw : f.IsWord position := by
      simp only [storeSize] at hp
      exact f.isWord_of_lt (by omega) (by omega)
    exact ⟨position, hp, hb, WordFormat.toWord_eq_self hw⟩

theorem Store.get_ofProgram (f : WordFormat) (program : List Instruction) (a : Address) :
    (Store.ofProgram f program).get a =
      match program[a.val]? with
      | some i => f.toWord (i.encode f)
      | none => 0 := by
  rw [Store.ofProgram, Store.get_ofWords, List.getD_eq_getElem?_getD,
    List.getElem?_map]
  cases program[a.val]? <;> rfl

theorem Assembler.hold_fst (a : Assembler) (file source : Text) :
    (a.hold file source).1 = a.programFor file source := by
  rw [hold]
  split <;> simp_all

theorem Assembler.assemble_fst (a : Assembler) (file source : Text) :
    (a.assemble file source).1 = (a.programFor file source).map (·.store) := by
  rw [← hold_fst]
  rfl

theorem Assembler.assemble_snd_program (a : Assembler) (file source : Text) :
    (a.assemble file source).2.program = (a.programFor file source).toOption := by
  change (a.hold file source).2.program = _
  rw [hold]
  cases a.programFor file source <;> rfl

theorem Program.isWord_store (p : Program) (a : Address) : p.format.IsWord (p.store.get a) := by
  rw [store, Store.get_ofProgram]
  split
  · exact p.format.isWord_toWord _
  · exact p.format.isWord_zero

theorem entry_readsBack {e : Entry} {n : Int} (he : e.WellFormed) (hn : e.value.Denotes lines n)
    (hle : (entriesOf lines).length ≤ storeSize) :
    e.ReadsBack f lines (f.toWord ((Instruction.ofOperand e.kind n).encode f)) := by
  cases e with
  | data v => exact data_readsBack hn hle
  | order kind operand => exact order_readsBack he.1 hn hle

theorem mem_entriesOf {e : Placed Entry} (h : e ∈ entriesOf lines) :
    ∃ l ∈ lines, l.item = .entry e.item := ⟨_, mk_mem_of_mem_entriesOf h, rfl⟩

theorem isTagName_of_boundAt {d : Dialect} {file source tag : Text} {position : Nat}
    (h : readSource d file source = .ok lines) (hb : BoundAt lines tag position) :
    isTagName tag = true := by
  obtain ⟨before, line, entry, after, rfl, ht, -⟩ := hb
  exact readSource_isTagName h (by simp) ht

theorem assemble_readsBack {a : Assembler} {file source : Text} {image : Store}
    (hc : a.checkSize = true) (h : (a.assemble file source).1 = .ok image) :
    ∃ lines, readSource a.dialect file source = .ok lines ∧
      Store.ReadsBack a.format lines image := by
  rw [a.assemble_fst, map_eq_ok_iff] at h
  obtain ⟨program, hp, rfl⟩ := h
  obtain ⟨lines, hr, hl⟩ := bind_eq_ok_iff.mp hp
  obtain ⟨hle, hf, -, hall⟩ := link_eq_ok_iff.mp hl
  refine ⟨lines, hr, hle hc, fun p => hf ▸ program.isWord_store p, fun p => ?_⟩
  rw [Program.store, Store.get_ofProgram, hf]
  by_cases hlt : p.val < (entriesOf lines).length
  · have hlt' : p.val < program.instructions.length := hall.length_eq ▸ hlt
    obtain ⟨n, hn, hi⟩ := hall.get hlt hlt'
    obtain ⟨l, hm, hs⟩ := mem_entriesOf (List.getElem_mem hlt)
    have hw := readSource_wellFormed hr l hm
    rw [hs] at hw
    rw [List.getElem?_eq_getElem hlt, List.getElem?_eq_getElem hlt']
    simp only [List.get_eq_getElem] at hi hn
    simp only [hi]
    exact entry_readsBack hw hn (hle hc)
  · have hge := Nat.le_of_not_lt hlt
    rw [List.getElem?_eq_none hge, List.getElem?_eq_none (hall.length_eq ▸ hge)]

/-- Words of eight bits, a forward reference, a tag that is bound twice and one that another
declaration cuts off. -/
theorem assemble_readsBack_eightBits :
    let a := Assembler.new .historical ⟨8, 8, by decide, by decide⟩ true
    let source := ":a\n-$b, C\n:b\nabs $a\n:a\n:b ; again\nc, 0x-1".toList
    let image := Store.ofWords [66, 0, -33]
    a.checkSize = true ∧ (a.assemble [] source).1 = .ok image ∧
      ∃ lines, readSource a.dialect [] source = .ok lines ∧
        Store.ReadsBack a.format lines image := by
  intro a source image
  have h : (a.assemble [] source).1 = .ok image := by decide +kernel
  exact ⟨rfl, h, assemble_readsBack rfl h⟩

end ManchesterBaby
