import Mathlib.Data.List.DropRight
import ManchesterBaby.Proofs.Assembler.Reports
import ManchesterBaby.Proofs.Hexadecimal
import ManchesterBaby.Proofs.Link.Symbols
import ManchesterBaby.Proofs.Text.Order

/-! The report on the symbols read back. A line ends in a hexadecimal numeral, whose marker is the
last one in the line whatever the name is, so the table is recovered, in the order of its
positions. -/

namespace ManchesterBaby

/-- Cuts a text before the last marker in it. -/
def cutAtMarker? : Text → Option (Text × Text)
  | [] => none
  | c :: rest =>
    match cutAtMarker? rest with
    | some (before, numeral) => some (c :: before, numeral)
    | none => if c = '0' ∧ rest.head? = some 'x' then some ([], c :: rest) else none

def readSymbolRow? (row : Text) : Option (Text × Int) :=
  (cutAtMarker? row).bind fun (name, numeral) =>
    (readDigits? .hex numeral).map fun position : Nat =>
      (name.rdropWhile (· == ' '), (position : Int))

theorem cutAtMarker?_eq_none {t : Text} (h : 'x' ∉ t) : cutAtMarker? t = none := by
  induction t with
  | nil => rfl
  | cons c t ih =>
    obtain ⟨-, ht⟩ := not_or.mp (List.mem_cons.not.mp h)
    have hx : t.head? ≠ some 'x' := fun hx => ht (List.mem_of_mem_head? hx)
    simp only [cutAtMarker?, ih ht, hx, and_false, if_false]

theorem cutAtMarker?_append (before : Text) {digits : Text} (h : 'x' ∉ digits) :
    cutAtMarker? (before ++ '0' :: 'x' :: digits) = some (before, '0' :: 'x' :: digits) := by
  induction before with
  | nil => simp [cutAtMarker?, cutAtMarker?_eq_none h]
  | cons c before ih => rw [List.cons_append, cutAtMarker?, ih]

theorem rdropWhile_rightpad {name : Text} (h : ' ' ∉ name) (width : Nat) :
    (name.rightpad width ' ').rdropWhile (· == ' ') = name := by
  rw [List.rightpad]
  induction width - name.length with
  | zero =>
    rw [List.replicate_zero, List.append_nil, List.rdropWhile_eq_self_iff]
    intro hne hl
    exact h (eq_of_beq hl ▸ List.getLast_mem hne)
  | succ k ih =>
    rw [List.replicate_succ', ← List.append_assoc, List.rdropWhile_concat_pos _ _ _ rfl, ih]

theorem readSymbolRow?_eq {name : Text} (h : ' ' ∉ name) (position : Nat) :
    readSymbolRow? (name.rightpad 16 ' ' ++ hexadecimal 4 position) =
      some (name, (position : Int)) := by
  have hx : 'x' ∉ hexDigitsTo 2 position := fun hm =>
    absurd (isHexDigit_of_mem_hexDigitsTo hm) (by decide)
  have hr := readDigits?_hexadecimal 2 position
  rw [hexadecimal_natCast] at hr
  rw [readSymbolRow?, hexadecimal_natCast, cutAtMarker?_append _ hx, Option.bind_some]
  simp only [hr, Option.map_some, rdropWhile_rightpad h]

namespace Program

variable {p : Program} {f : WordFormat} {lines : List Line}

/-- The order of the report. -/
def isListedBefore (x y : Text × Int) : Bool := x.2 < y.2 || (x.2 == y.2 && x.1.le y.1)

def sortedSymbols (p : Program) : SymbolTable := p.symbols.mergeSort isListedBefore

theorem isListedBefore_iff {x y : Text × Int} :
    isListedBefore x y = true ↔ x.2 < y.2 ∨ x.2 = y.2 ∧ x.1.le y.1 = true := by
  simp [isListedBefore]

theorem sortedSymbols_perm (p : Program) : p.sortedSymbols.Perm p.symbols :=
  List.mergeSort_perm _ _

/-- No two positions are equal, so the names do not matter to the order. -/
theorem sortedSymbols_pairwise (h : p.LinkedFrom f lines) :
    p.sortedSymbols.Pairwise fun x y => x.2 < y.2 := by
  have ht : ∀ x y z : Text × Int, isListedBefore x y = true → isListedBefore y z = true →
      isListedBefore x z = true := by
    intro x y z hxy hyz
    rw [isListedBefore_iff] at hxy hyz ⊢
    rcases hxy with hxy | ⟨hxy, hs⟩ <;> rcases hyz with hyz | ⟨hyz, ht⟩
    · exact .inl (Int.lt_trans hxy hyz)
    · exact .inl (hyz ▸ hxy)
    · exact .inl (hxy ▸ hyz)
    · exact .inr ⟨hxy.trans hyz, Text.le_trans hs ht⟩
  have htotal : ∀ x y : Text × Int, (isListedBefore x y || isListedBefore y x) = true := by
    intro x y
    rw [Bool.or_eq_true, isListedBefore_iff, isListedBefore_iff]
    rcases Int.lt_trichotomy x.2 y.2 with h | h | h
    · exact .inl (.inl h)
    · exact (Text.le_total x.1 y.1).imp (.inr ⟨h, ·⟩) (.inr ⟨h.symm, ·⟩)
    · exact .inr (.inl h)
  have hn : (p.sortedSymbols.map (·.2)).Nodup :=
    (p.sortedSymbols_perm.map _).nodup_iff.mpr h.nodup_positions
  refine (List.pairwise_mergeSort ht htotal p.symbols).imp₂ ?_ (List.pairwise_map.mp hn)
  intro x y hxy hne
  exact (isListedBefore_iff.mp hxy).resolve_right fun he => hne he.1

theorem symbolReport_eq (p : Program) :
    p.symbolReport = p.sortedSymbols.flatMap fun s => symbolRow s.1 s.2 := rfl

end Program

theorem lines_flatMap_symbolRow {table : SymbolTable} (h : ∀ s ∈ table, isTagName s.1 = true) :
    Text.lines (table.flatMap fun s => Program.symbolRow s.1 s.2) =
      table.map fun s => s.1.rightpad 16 ' ' ++ hexadecimal 4 s.2 := by
  induction table with
  | nil => rfl
  | cons s table ih =>
    obtain ⟨hs, ht⟩ := List.forall_mem_cons.mp h
    have hu : Unbroken (s.1.rightpad 16 ' ' ++ hexadecimal 4 s.2) :=
      ((unbroken_of_isTagName hs).rightpad 16).append (isToken_hexadecimal 4 s.2).unbroken
    rw [List.flatMap_cons, Program.symbolRow, List.append_assoc _ ['\n'], List.singleton_append,
      Text.lines_append_feed hu, ih ht, List.map_cons]

theorem Program.isTagName_of_mem {p : Program} (h : p.IsAssembled) {s : Text × Int}
    (hs : s ∈ p.symbols) : isTagName s.1 = true :=
  isTagName_of_isAssembled h s.1 (List.mem_map_of_mem hs)

theorem Program.lines_symbolReport {p : Program} (h : p.IsAssembled) :
    p.symbolReport.lines =
      p.sortedSymbols.map fun s => s.1.rightpad 16 ' ' ++ hexadecimal 4 s.2 := by
  rw [symbolReport_eq, lines_flatMap_symbolRow]
  exact fun s hs => isTagName_of_mem h (p.sortedSymbols_perm.mem_iff.mp hs)

theorem Program.mapM_readSymbolRow? {p : Program} {f : WordFormat} {lines : List Line}
    (h : p.IsAssembled) (hl : p.LinkedFrom f lines) :
    p.symbolReport.lines.mapM readSymbolRow? = some p.sortedSymbols := by
  rw [lines_symbolReport h, mapM_eq_some_iff, List.forall₂_map_left_iff, List.forall₂_same]
  intro s hs
  have hm := p.sortedSymbols_perm.mem_iff.mp hs
  obtain ⟨q, hq⟩ := hl.position_of_mem hm
  have hb : ' ' ∉ s.1 := fun hb =>
    Bool.noConfusion ((Value.isTagName_iff.mp (isTagName_of_mem h hm)).2 ' ' hb)
  rw [hq, readSymbolRow?_eq hb, ← hq]

theorem Assembler.symbols_eq {a : Assembler} {p : Program} (hp : a.program = some p) :
    a.symbols = .ok p.symbols := by
  rw [symbols, held_eq hp, Except.map]

/-- Of every source that is accepted the report has a line for each symbol, in the order of their
positions, no two of which are equal, and the table can be read from it. -/
theorem symbolReport_readsBack {memory : Memory} {a : Assembler} {file source : Text}
    {image : Store} (h : (Capacity.assemble memory a file source).1 = .ok image) :
    ∃ (table : SymbolTable) (report : Text) (read : SymbolTable),
      (Capacity.assemble memory a file source).2.symbols = .ok table ∧ table.names.Nodup ∧
      (Capacity.assemble memory a file source).2.symbolReport = .ok report ∧
      report.lines.length = table.length ∧ report.lines.mapM readSymbolRow? = some read ∧
      read.Pairwise (fun x y => x.2 < y.2) ∧ read.Perm table := by
  obtain ⟨p, lines, hp, ha, hl, -⟩ := Capacity.exists_linkedFrom_of_assemble h
  refine ⟨p.symbols, p.symbolReport, p.sortedSymbols, Assembler.symbols_eq hp, hl.nodup_names,
    Assembler.symbolReport_eq hp, ?_, Program.mapM_readSymbolRow? ha hl,
    Program.sortedSymbols_pairwise hl, p.sortedSymbols_perm⟩
  rw [Program.lines_symbolReport ha, List.length_map, p.sortedSymbols_perm.length_eq]

/-- Names with markers in them, one longer than its column, and positions of three digits. -/
theorem symbolReport_readsBack_markers :
    let a := Assembler.new .modern .standard false
    let source := ":0x0x100\nstp\n".toList ++ (List.replicate 255 "stp\n".toList).flatten ++
      ":late\nstp\n:seventeen-chars-0\ncmp\n:0x0x100\ncmp".toList
    let table : SymbolTable :=
      [("0x0x100".toList, 258), ("late".toList, 256), ("seventeen-chars-0".toList, 257)]
    (Capacity.assemble .unlimited a [] source).1 = .ok (.ofWords (List.replicate 32 57344)) ∧
      ∃ (report : Text) (read : SymbolTable),
        (Capacity.assemble .unlimited a [] source).2.symbolReport = .ok report ∧
        report.lines.length = 3 ∧
        report.lines.mapM readSymbolRow? = some read ∧ read.Pairwise (fun x y => x.2 < y.2) ∧
        read.Perm table := by
  intro a source table
  let p : Program := ⟨List.replicate 257 ⟨.stop, 0⟩ ++ List.replicate 2 ⟨.skipNextIfNegative, 0⟩,
    table, .standard⟩
  have hp : a.programFor [] source = .ok p := by decide +kernel
  have h : (Capacity.assemble .unlimited a [] source).1 =
      .ok (.ofWords (List.replicate 32 57344)) :=
    Capacity.assemble_fst_eq_ok_iff.mpr ⟨p, hp, by decide +kernel⟩
  have hheld : (Capacity.assemble .unlimited a [] source).2.program = some p := by
    rw [Capacity.assemble_snd_program, hp]
    rfl
  obtain ⟨_, report, read, ht, -, hr, hl, hm, hpairs, hperm⟩ := symbolReport_readsBack h
  obtain rfl := Except.ok.inj ((Assembler.symbols_eq hheld).symm.trans ht)
  exact ⟨h, report, read, hr, hl, hm, hpairs, hperm⟩

end ManchesterBaby
