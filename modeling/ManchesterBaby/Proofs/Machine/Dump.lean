import ManchesterBaby.Proofs.Capacity
import ManchesterBaby.Proofs.Hexadecimal
import ManchesterBaby.Proofs.Machine.WellFormed

/-! A machine read from its dump. All the numerals of a dump are hexadecimal and end where another
character follows, so they come out of it in order, whatever their widths, and what the machine
holds comes out of them. -/

namespace ManchesterBaby

/-- The digits of the hexadecimal numerals in a text, marker by marker. -/
def hexNumerals : Text → List Text
  | [] => []
  | c :: rest =>
    if c = '0' ∧ rest.head? = some 'x' then rest.tail.takeWhile isHexDigit :: hexNumerals rest
    else hexNumerals rest

/-- Addresses and words in turn. -/
def readCells? (f : WordFormat) : List Text → Option (List (Nat × Int))
  | [] => some []
  | [_] => none
  | address :: word :: rest => do
    let address ← readDigits? .hex address
    let word ← readDigits? .hex word
    let cells ← readCells? f rest
    return (address, f.toWord word) :: cells

/-- The machine that a text shows, if that has each address once and in order. -/
def readDump? (f : WordFormat) (t : Text) : Option Machine :=
  match hexNumerals t with
  | accumulator :: current :: counter :: rest => do
    let accumulator ← readDigits? .hex accumulator
    let current ← readDigits? .hex current
    let counter ← readDigits? .hex counter
    let cells ← readCells? f rest
    guard (cells.map (·.1) = List.range storeSize)
    return ⟨f, .ofWords (cells.map (·.2)), f.toWord accumulator, counter, current⟩
  | _ => none

/-- A numeral goes no further than this character, and no marker has it. -/
def endsNumeral (c : Char) : Bool := !isHexDigit c && c != 'x'

section Numerals

variable {c : Char} {s t : Text}

theorem hexNumerals_eq_nil (h : 'x' ∉ t) : hexNumerals t = [] := by
  induction t with
  | nil => rfl
  | cons c t ih =>
    obtain ⟨-, ht⟩ := not_or.mp (List.mem_cons.not.mp h)
    have hx : t.head? ≠ some 'x' := fun hx => ht (List.mem_of_mem_head? hx)
    rw [hexNumerals, if_neg fun hm => hx hm.2, ih ht]

theorem takeWhile_isHexDigit_append_cons (h : isHexDigit c = false) (s t : Text) :
    (s ++ c :: t).takeWhile isHexDigit = s.takeWhile isHexDigit := by
  rw [List.takeWhile_append, List.takeWhile_cons_of_neg (by simp [h]), List.append_nil]
  split
  · next hl => exact (List.takeWhile_prefix _).eq_of_length hl |>.symm
  · rfl

theorem hexNumerals_append_cons (h : endsNumeral c = true) (s t : Text) :
    hexNumerals (s ++ c :: t) = hexNumerals s ++ hexNumerals t := by
  obtain ⟨hd, hx⟩ : isHexDigit c = false ∧ c ≠ 'x' := by simpa [endsNumeral] using h
  have h0 : c ≠ '0' := by
    rintro rfl
    cases hd
  induction s with
  | nil => simp [hexNumerals, h0]
  | cons d s ih =>
    rw [List.cons_append, hexNumerals, hexNumerals, ih]
    cases s with
    | nil => simp [hexNumerals, hx]
    | cons e s =>
      rw [List.cons_append, List.tail_cons, takeWhile_isHexDigit_append_cons hd, List.head?_cons,
        List.head?_cons]
      by_cases hm : d = '0' ∧ some e = some 'x'
      · rw [if_pos hm, if_pos hm]
        rfl
      · rw [if_neg hm, if_neg hm]

theorem hexNumerals_intercalate (h : endsNumeral c = true) (ls : List Text) :
    hexNumerals (List.intercalate [c] ls) = ls.flatMap hexNumerals := by
  induction ls with
  | nil => rfl
  | cons l ls ih =>
    cases ls with
    | nil => simp
    | cons m ls =>
      rw [List.intercalate_cons_cons, List.append_assoc, List.singleton_append,
        hexNumerals_append_cons h, ih]
      rfl

theorem hexNumerals_hexadecimal (width n : Nat) :
    hexNumerals (hexadecimal (width + 2) n) = [hexDigitsTo width n] := by
  have hd : ∀ c ∈ hexDigitsTo width n, isHexDigit c = true := fun c => isHexDigit_of_mem_hexDigitsTo
  have hx : 'x' ∉ hexDigitsTo width n := fun hm => Bool.noConfusion (hd 'x' hm)
  rw [hexadecimal_natCast, hexNumerals, if_pos ⟨rfl, rfl⟩, hexNumerals,
    if_neg fun hm => absurd hm.1 (by decide), hexNumerals_eq_nil hx, List.tail_cons,
    List.takeWhile_eq_self_iff.mpr hd]

end Numerals

/-- The digits show a word in as many places as its bits take up. -/
structure ShowsWord (f : WordFormat) (digits : Text) (word : Int) : Prop where
  length_eq : digits.length = f.wordBits ⌈/⌉ 4
  read_eq : (readDigits? .hex digits).map (fun n : Nat => f.toWord n) = some word

theorem showsWord {f : WordFormat} {n : Int} (h : f.IsWord n) :
    ShowsWord f (hexDigitsTo f.wordDigits (f.toUnsigned n).toNat) n where
  length_eq := f.length_wordNumeral n
  read_eq := by
    rw [readDigits?_hexDigitsTo, Option.map_some, WordFormat.toWord_toNat_toUnsigned h]

namespace Machine

variable {f : WordFormat} {m : Machine}

theorem hexNumerals_hexWord (f : WordFormat) (word : Int) :
    hexNumerals (f.hexWord word) = [hexDigitsTo f.wordDigits (f.toUnsigned word).toNat] := by
  rw [f.hexWord_eq, hexNumerals_hexadecimal]

theorem hexNumerals_cell (m : Machine) (a : Address) :
    hexNumerals (m.cell a) =
      [hexDigitsTo 2 a.val,
        hexDigitsTo m.format.wordDigits (m.format.toUnsigned (m.store.get a)).toNat] := by
  have hc : m.cell a = hexadecimal 4 (a.val : Int) ++
      ':' :: ([] ++ ' ' :: (m.format.hexWord (m.store.get a) ++ ';' :: [])) := by
    simp [cell, Store.get_eq_getElem]
  rw [hc, hexNumerals_append_cons rfl, hexNumerals_append_cons rfl, hexNumerals_append_cons rfl,
    hexNumerals_hexadecimal, hexNumerals_hexWord]
  rfl

/-- Rows and columns go through the addresses in order. -/
theorem flatMap_dumpRow (m : Machine) :
    ((List.finRange 8).map m.dumpRow).flatMap hexNumerals =
      (List.finRange 32).flatMap fun a => hexNumerals (m.cell a) := by
  have haddresses : List.finRange 32 = (List.finRange 8).flatMap fun row =>
      (List.finRange 4).map fun column : Fin 4 => ⟨4 * row + column, by omega⟩ := by decide
  rw [haddresses, List.flatMap_assoc, List.flatMap_map]
  refine List.flatMap_congr fun row _ => ?_
  rw [dumpRow, hexNumerals_intercalate rfl, List.flatMap_map, List.flatMap_map]

theorem hexNumerals_dump (m : Machine) (hcurrent : 0 ≤ m.current) (hcounter : 0 ≤ m.counter) :
    hexNumerals m.dump =
      hexDigitsTo m.format.wordDigits (m.format.toUnsigned m.accumulator).toNat ::
        hexDigitsTo m.format.fieldDigits m.current.toNat :: hexDigitsTo 4 m.counter.toNat ::
          (List.finRange 32).flatMap fun a => hexNumerals (m.cell a) := by
  have hregisters : hexNumerals ("Accumulator: ".toList ++ m.format.hexWord m.accumulator ++
      "; Instruction Register: ".toList ++
      hexadecimal (m.format.fieldDigits + 2) m.current.toNat ++ [';']) =
        [hexDigitsTo m.format.wordDigits (m.format.toUnsigned m.accumulator).toNat,
          hexDigitsTo m.format.fieldDigits m.current.toNat] := by
    have hl : "Accumulator: ".toList = "Accumulator:".toList ++ [' '] := rfl
    have hi : "; Instruction Register: ".toList =
        ';' :: (" Instruction Register:".toList ++ [' ']) := rfl
    rw [hl, hi]
    simp only [List.append_assoc, List.cons_append, List.nil_append]
    rw [hexNumerals_append_cons rfl, hexNumerals_append_cons rfl, hexNumerals_append_cons rfl,
      hexNumerals_append_cons rfl, hexNumerals_hexWord, hexNumerals_hexadecimal]
    rfl
  have hline : hexNumerals ("Instruction Address: ".toList ++ hexadecimal 6 m.counter.toNat ++
      "; Main Store:".toList) = [hexDigitsTo 4 m.counter.toNat] := by
    have hl : "Instruction Address: ".toList = "Instruction Address:".toList ++ [' '] := rfl
    have hs : "; Main Store:".toList = ';' :: " Main Store:".toList := rfl
    rw [hl, hs]
    simp only [List.append_assoc, List.cons_append, List.nil_append]
    rw [hexNumerals_append_cons rfl, hexNumerals_append_cons rfl, hexNumerals_hexadecimal]
    rfl
  rw [Int.toNat_of_nonneg hcurrent] at hregisters
  rw [Int.toNat_of_nonneg hcounter] at hline
  rw [dump, hexNumerals_append_cons rfl, Text.joinLines, hexNumerals_intercalate rfl,
    List.flatMap_cons, List.flatMap_cons, flatMap_dumpRow, hregisters, hline]
  exact List.append_nil _

theorem HoldsWords.readCells?_eq (h : m.HoldsWords f) (addresses : List Address) :
    readCells? f (addresses.flatMap fun a => hexNumerals (m.cell a)) =
      some (addresses.map fun a => (a.val, m.store.get a)) := by
  induction addresses with
  | nil => rfl
  | cons a addresses ih =>
    have hw := WordFormat.toWord_toNat_toUnsigned (h.isWord_store a)
    rw [List.flatMap_cons, hexNumerals_cell, h.format_eq]
    simp only [List.cons_append, List.nil_append, readCells?, readDigits?_hexDigitsTo, ih]
    exact congrArg (fun w => some ((a.val, w) :: _)) hw

theorem WellFormed.current_nonneg (h : m.WellFormed f) : 0 ≤ m.current := by
  rw [h.current_eq]
  exact f.field_nonneg _

theorem WellFormed.counter_nonneg (h : m.WellFormed f) : 0 ≤ m.counter := by
  rw [← h.counter_val]
  exact Int.natCast_nonneg _

theorem WellFormed.readDump?_dump (h : m.WellFormed f) : readDump? f m.dump = some m := by
  have hw := WordFormat.toWord_toNat_toUnsigned h.isWord_accumulator
  have haddresses : (List.finRange 32).map (·.val) = List.range storeSize := by decide
  have hstore : Store.ofWords ((List.finRange 32).map m.store.get) = m.store := by
    ext a ha
    simp [Store.ofWords, Store.get_eq_getElem]
  have hm : (⟨f, m.store, m.accumulator, m.counter, m.current⟩ : Machine) = m := by
    rw [← h.format_eq]
  rw [readDump?, m.hexNumerals_dump h.current_nonneg h.counter_nonneg, h.format_eq]
  simp only [readDigits?_hexDigitsTo, h.readCells?_eq, List.map_map, Option.bind_eq_bind,
    Option.bind_some, Function.comp_def, haddresses, hstore, hw,
    Int.toNat_of_nonneg h.current_nonneg, Int.toNat_of_nonneg h.counter_nonneg, hm]
  rfl

/-- A dump shows each word of a well-formed machine once, in the order of the addresses, and the
machine can be read from it. So no two machines of a format have one dump. -/
theorem dump_readsBack (memory : Memory) (h : m.WellFormed f) :
    (∀ t, Capacity.dump memory m = .ok t ↔ (f.wordFault? memory = none ∧
      memory.lengthFault? (f.wordDigits + 2 : Nat) .columnTooWide = none) ∧ t = m.dump) ∧
    (∃ (accumulator current counter : Text) (words : Address → Text),
      hexNumerals m.dump = accumulator :: current :: counter ::
        (List.finRange 32).flatMap (fun a : Address => [hexDigitsTo 2 a.val, words a]) ∧
      ShowsWord f accumulator m.accumulator ∧ (∀ a, ShowsWord f (words a) (m.store.get a)) ∧
      current.length = f.fieldBits ⌈/⌉ 4 ∧ readDigits? .hex current = some m.current.toNat ∧
      readDigits? .hex counter = some m.counter.toNat) ∧
    readDump? f m.dump = some m ∧
    ∀ other, other.WellFormed f → other.dump = m.dump → other = m := by
  refine ⟨fun t => ?_, ⟨_, _, _, fun a => _, ?_, showsWord h.isWord_accumulator,
    fun a => showsWord (h.isWord_store a), ?_, readDigits?_hexDigitsTo f.fieldDigits _,
    readDigits?_hexDigitsTo 4 _⟩, h.readDump?_dump, fun other ho hd => ?_⟩
  · rw [Capacity.dump_eq_ok_iff, Capacity.column_eq_ok_iff, h.format_eq]
  · rw [m.hexNumerals_dump h.current_nonneg h.counter_nonneg, h.format_eq]
    simp only [hexNumerals_cell, h.format_eq]
  · rw [h.current_eq]
    exact f.length_fieldNumeral _
  · have hr := ho.readDump?_dump
    rw [hd, h.readDump?_dump] at hr
    exact (Option.some.inj hr).symm

/-- The least word of thirteen bits and the bits of -1, in four digits each; the field of nine bits
has three. -/
theorem dump_readsBack_thirteenBits :
    let f : WordFormat := ⟨13, 9, by decide, by decide⟩
    let m := (start f (.ofWords [-4096, -1])).subtract 1
    m.WellFormed f ∧ (hexNumerals m.dump).take 9 =
      ["1fff", "1ff", "0001", "00", "1000", "01", "1fff", "02", "0000"].map (·.toList) ∧
      Capacity.dump .unlimited m = .ok m.dump ∧ readDump? f m.dump = some m ∧
      ∀ other, other.WellFormed f → other.dump = m.dump → other = m := by
  intro f m
  have hw : ∀ n ∈ [(-4096 : Int), -1], f.IsWord n := by decide
  have hm : m.WellFormed f := (wellFormed_start (isWord_ofWords hw)).toHoldsWords.subtract 1
  obtain ⟨hd, -, hr, hi⟩ := dump_readsBack .unlimited hm
  exact ⟨hm, by decide +kernel, (hd _).mpr ⟨by decide, rfl⟩, hr, hi⟩

end Machine

end ManchesterBaby
