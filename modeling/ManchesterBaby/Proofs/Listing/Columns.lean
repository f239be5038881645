import ManchesterBaby.Proofs.Assembler.Reports
import ManchesterBaby.Proofs.Hexadecimal
import ManchesterBaby.Proofs.Link.Symbols
import ManchesterBaby.Proofs.Mnemonic

/-! The rows of a listing split at their spaces. Address and word always come out. The column of the
instruction is ten characters wide and nothing stands between it and the tag, so an instruction that
fills it takes the tag for the end of its number. -/

namespace ManchesterBaby

/-- What stands between the spaces of a text. -/
def tokens (t : Text) : List Text := (t.splitOnP (· == ' ')).filter (!·.isEmpty)

structure ListedRow where
  position : Nat
  word : Nat
  instruction : Text
  tag : Option Text
deriving DecidableEq

def bareMnemonics : List Text := [Kind.skipNextIfNegative.mnemonic, Kind.stop.mnemonic]

/-- The instruction that the words begin with, and the words after it. A mnemonic that is not bare
has a number after it. -/
def readInstruction? : List Text → Option (Text × List Text)
  | [] => none
  | name :: rest =>
    if name ∈ bareMnemonics then some (name, rest)
    else
      match rest with
      | [] => none
      | number :: rest => some (name ++ ' ' :: number, rest)

def readRow? (row : Text) : Option ListedRow :=
  match tokens row with
  | address :: word :: rest => do
    let position ← readDigits? .hex address
    let word ← readDigits? .hex word
    let (instruction, rest) ← readInstruction? rest
    return ⟨position, word, instruction, rest.head?⟩
  | _ => none

/-- The instruction leaves a space in its column. -/
def Instruction.IsNarrow (i : Instruction) : Prop :=
  i.kind = .absoluteValue → -10000 < i.operand ∧ i.operand < 100000

instance (i : Instruction) : Decidable i.IsNarrow :=
  inferInstanceAs (Decidable (_ → _ ∧ _))

section Tokens

variable {t : Text}

theorem tokens_append_space (s t : Text) : tokens (s ++ ' ' :: t) = tokens s ++ tokens t := by
  have hs : ((' ' : Char) == ' ') = true := beq_self_eq_true ' '
  rw [tokens, @List.splitOnP_append_cons _ (· == ' ') s t ' ' hs, List.filter_append]
  rfl

theorem tokens_space (t : Text) : tokens (' ' :: t) = tokens t := tokens_append_space [] t

theorem tokens_of_notMem (hne : t ≠ []) (h : ' ' ∉ t) : tokens t = [t] := by
  have hs : ∀ c ∈ t, (c == ' ') = false := by
    intro c hc
    rw [beq_eq_false_iff_ne]
    rintro rfl
    exact h hc
  rw [tokens, List.splitOnP_eq_singleton hs]
  simp [hne]

theorem tokens_spaces (s : Text) (k : Nat) (t : Text) :
    tokens (s ++ (List.replicate (k + 1) ' ' ++ t)) = tokens s ++ tokens t := by
  induction k with
  | zero => exact tokens_append_space s t
  | succ k ih =>
    rw [List.replicate_succ, List.cons_append, tokens_append_space] at ih ⊢
    rw [List.replicate_succ, List.cons_append, tokens_space, ih]

theorem Text.trimEnd_append_of_solid (hne : t ≠ []) (h : ∀ c ∈ t, isBlank c = false)
    (before : Text) : Text.trimEnd (before ++ t) = before ++ t := by
  obtain ⟨c, hc⟩ := List.exists_mem_of_ne_nil t hne
  have ht : Text.trimEnd t = t := by
    rw [Text.trimEnd, List.reverse_eq_iff, List.dropWhile_eq_self_iff]
    intro hl hb
    have hn := h _ (List.mem_reverse.mp (List.getElem_mem hl))
    rw [hb] at hn
    cases hn
  rw [Text.trimEnd_append ⟨c, hc, h c hc⟩, ht]

end Tokens

theorem Kind.mnemonic_mem_bareMnemonics_iff (k : Kind) :
    k.mnemonic ∈ bareMnemonics ↔ k = .skipNextIfNegative ∨ k = .stop := by
  cases k <;> decide +kernel

namespace Instruction

theorem number?_eq_none_iff (i : Instruction) :
    i.number? = none ↔ i.kind.mnemonic ∈ bareMnemonics := by
  rw [Kind.mnemonic_mem_bareMnemonics_iff, number?]
  cases i.kind <;> simp [Kind.hasAddress]

/-- The text of an instruction, with what follows it directly, is one word or two. -/
theorem tokens_mnemonic_append (i : Instruction) {t : Text} (h : ' ' ∉ t) :
    tokens (i.mnemonic ++ t) =
      match i.number? with
      | none => [i.kind.mnemonic ++ t]
      | some n => [i.kind.mnemonic, decimal n ++ t] := by
  have hk := i.kind.space_notMem_mnemonic
  rw [mnemonic_eq]
  cases i.number? with
  | none =>
    rw [Option.map_none, Option.getD_none, List.append_nil]
    exact tokens_of_notMem (by simp [i.kind.mnemonic_ne_nil]) (List.not_mem_append hk h)
  | some n =>
    have hd : ' ' ∉ decimal n := (isToken_decimal n).space_notMem
    rw [Option.map_some, Option.getD_some, List.append_assoc, List.cons_append,
      tokens_append_space, tokens_of_notMem i.kind.mnemonic_ne_nil hk,
      tokens_of_notMem (by simp [(isToken_decimal n).nonempty]) (List.not_mem_append hd h)]
    rfl

theorem readInstruction?_tokens (i : Instruction) (rest : List Text) :
    readInstruction? (tokens i.mnemonic ++ rest) = some (i.mnemonic, rest) := by
  have hw := i.tokens_mnemonic_append (t := []) List.not_mem_nil
  have hb := i.number?_eq_none_iff
  rw [List.append_nil] at hw
  rw [hw, mnemonic_eq]
  cases hn : i.number? with
  | none => simp [readInstruction?, hb.mp hn]
  | some n =>
    have hm : i.kind.mnemonic ∉ bareMnemonics := fun hm => by
      rw [hb.mpr hm] at hn
      cases hn
    simp [readInstruction?, hm]

theorem length_mnemonic_lt_iff (i : Instruction) : i.mnemonic.length < 10 ↔ i.IsNarrow := by
  have ha : ∀ a : Address, (decimal a.val).length ≤ 2 := by decide
  have hl : i.mnemonic.length =
      3 + (i.number?.map fun n => (decimal n).length + 1).getD 0 := by
    rw [mnemonic_eq, List.length_append, i.kind.length_mnemonic]
    cases i.number? <;> rfl
  rw [hl, IsNarrow, number?]
  split
  · next hk =>
    have hd : ∀ k, 0 < k → ((Nat.toDigits 10 i.operand.natAbs).length ≤ k ↔
        i.operand.natAbs < 10 ^ k) := fun k hk => Nat.length_toDigits_le_iff (by decide) hk
    have h4 := hd 4 (by decide)
    have h5 := hd 5 (by decide)
    simp only [hk, Option.map_some, Option.getD_some, decimal, minus, List.length_append,
      true_imp_iff]
    split <;> simp only [List.length_singleton, List.length_nil] <;> omega
  · next hk =>
    simp only [hk, false_imp_iff, iff_true]
    split
    · have := ha i.address
      simp only [Option.map_some, Option.getD_some]
      omega
    · decide

end Instruction

/-- Instruction and tag as a row shows them. -/
def shownColumns (i : Instruction) (tag : Option Text) : Text × Option Text :=
  if i.IsNarrow then (i.mnemonic, tag) else (i.mnemonic ++ tag.getD [], none)

theorem shownColumns_eq_iff {i : Instruction} {tag : Option Text}
    (h : ∀ name ∈ tag, isTagName name = true) :
    shownColumns i tag = (i.mnemonic, tag) ↔ tag = none ∨ i.IsNarrow := by
  rw [shownColumns]
  cases tag with
  | none => simp
  | some name =>
    obtain ⟨hne, -⟩ := Value.isTagName_iff.mp (h name rfl)
    split <;> simp [*]

theorem Instruction.trimEnd_mnemonic (i : Instruction) (width : Nat) :
    Text.trimEnd (i.mnemonic.rightpad width ' ') = i.mnemonic := by
  have hb : (List.replicate (width - i.mnemonic.length) ' ').all isBlank = true := by
    rw [List.all_eq_true]
    intro c hc
    rw [List.eq_of_mem_replicate hc]
    rfl
  rw [List.rightpad, Text.trimEnd_append_right hb, mnemonic_eq]
  cases i.number? with
  | none =>
    rw [Option.map_none, Option.getD_none, List.append_nil]
    exact Text.trimEnd_append_of_solid i.kind.mnemonic_ne_nil i.kind.mnemonic_solid []
  | some n =>
    have hd := isToken_decimal n
    have ht := Text.trimEnd_append_of_solid hd.nonempty (fun c hc => (hd.solid c hc).not_blank)
      (i.kind.mnemonic ++ [' '])
    rwa [List.append_assoc, List.singleton_append] at ht

theorem Instruction.exists_number_of_not_isNarrow {i : Instruction} (h : ¬i.IsNarrow) :
    ∃ n, i.number? = some n := by
  cases hn : i.number? with
  | some n => exact ⟨n, rfl⟩
  | none =>
    have hm : i.mnemonic = i.kind.mnemonic := by simp [mnemonic_eq, hn]
    rw [← length_mnemonic_lt_iff, hm, i.kind.length_mnemonic] at h
    exact absurd (by decide) h

/-- The end of a row, from the instruction on. -/
theorem readInstruction?_rowEnd (i : Instruction) {tag : Option Text}
    (h : ∀ name ∈ tag, isTagName name = true) :
    ∃ rest, readInstruction?
        (tokens (Text.trimEnd (i.mnemonic.rightpad 10 ' ' ++ tag.getD []))) =
          some ((shownColumns i tag).1, rest) ∧ rest.head? = (shownColumns i tag).2 := by
  cases tag with
  | none =>
    have hr := i.readInstruction?_tokens []
    rw [List.append_nil] at hr
    refine ⟨[], ?_, ?_⟩
    · rw [Option.getD_none, List.append_nil, i.trimEnd_mnemonic, hr, shownColumns]
      split <;> simp
    · rw [shownColumns]
      split <;> rfl
  | some name =>
    obtain ⟨hne, hb⟩ := Value.isTagName_iff.mp (h name rfl)
    have hs : ' ' ∉ name := fun hm => Bool.noConfusion (hb ' ' hm)
    rw [Option.getD_some, Text.trimEnd_append_of_solid hne hb, List.rightpad]
    by_cases hi : i.IsNarrow
    · have hl := i.length_mnemonic_lt_iff.mpr hi
      obtain ⟨k, hk⟩ : ∃ k, 10 - i.mnemonic.length = k + 1 := ⟨9 - i.mnemonic.length, by omega⟩
      rw [hk, List.append_assoc, tokens_spaces, tokens_of_notMem hne hs, i.readInstruction?_tokens,
        shownColumns, if_pos hi]
      exact ⟨[name], rfl, rfl⟩
    · have hl : 10 - i.mnemonic.length = 0 := by
        have := i.length_mnemonic_lt_iff.not.mpr hi
        omega
      obtain ⟨n, hn⟩ := Instruction.exists_number_of_not_isNarrow hi
      have hm : i.kind.mnemonic ∉ bareMnemonics := fun hm => by
        rw [i.number?_eq_none_iff.mpr hm] at hn
        cases hn
      have hw := i.tokens_mnemonic_append hs
      rw [hn] at hw
      -- nothing is left between number and name, which come out as one word
      rw [hl, List.replicate_zero, List.append_nil, hw, shownColumns, if_neg hi, i.mnemonic_eq, hn]
      exact ⟨[], by simp [readInstruction?, hm], rfl⟩

namespace Program

variable {p : Program} {f : WordFormat}

theorem tokens_listingRow (p : Program) (f : WordFormat) (i : Instruction) (n : Nat) :
    tokens (p.listingRow f i n) =
      hexadecimal 4 n :: f.hexWord (f.toWord (i.encode f)) ::
        tokens (Text.trimEnd (i.mnemonic.rightpad 10 ' ' ++ (p.tagAt? n).getD [])) := by
  have ht : ∀ {t : Text}, IsToken t → ∀ rest,
      tokens (t ++ ' ' :: ' ' :: rest) = t :: tokens rest := by
    intro t h rest
    rw [tokens_append_space, tokens_space, tokens_of_notMem h.nonempty h.space_notMem,
      List.singleton_append]
  rw [listingRow_eq, List.append_assoc]
  exact (ht (isToken_hexadecimal 4 n) _).trans
    (congrArg (hexadecimal 4 n :: ·) (ht (isToken_hexadecimal _ _) _))

theorem readRow?_listingRow (h : ∀ name ∈ p.symbols.names, isTagName name = true)
    (f : WordFormat) (i : Instruction) (n : Nat) :
    readRow? (p.listingRow f i n) =
      some ⟨n, (f.toUnsigned (f.toWord (i.encode f))).toNat,
        (shownColumns i (p.tagAt? n)).1, (shownColumns i (p.tagAt? n)).2⟩ := by
  obtain ⟨rest, hr, htag⟩ := readInstruction?_rowEnd i (isTagName_of_tagAt? h (n := n))
  rw [readRow?, tokens_listingRow]
  simp only [readDigits?_hexadecimal 2 n, f.readDigits?_hexWord, hr, ← htag]
  rfl

theorem LinkedFrom.exists_shown_iff {lines : List Line} (hl : p.LinkedFrom f lines)
    (h : ∀ name ∈ p.symbols.names, isTagName name = true) (name : Text) (n : Nat) :
    (∃ row, (listedRows (p.listing f))[n]? = some row ∧
        (readRow? row).bind (·.tag) = some name) ↔
      p.symbols.lookup name = some (n : Int) ∧ ∃ i, p.loaded[n]? = some i ∧ i.IsNarrow := by
  rw [getElem?_listedRows h, ← hl.tagAt?_eq_some_iff]
  cases p.loaded[n]? with
  | none => simp
  | some i =>
    simp only [Option.map_some, Option.some.injEq, exists_eq_left', readRow?_listingRow h,
      Option.bind_some, shownColumns]
    split <;> simp [*]

end Program

/-- Once a source has been accepted, each row of its listing can be split back into position, word,
instruction and tag just if there is no tag or the instruction leaves a space before it. So each
symbol of the store is shown on its own row and no other, unless it is hidden there. -/
theorem listing_columns {memory : Memory} {a : Assembler} {file source : Text} {image : Store}
    {t : Text}
    (h : (Capacity.assemble memory a file source).1 = .ok image)
    (ht : Capacity.listing memory (Capacity.assemble memory a file source).2 = .ok t) :
    ∃ p, (Capacity.assemble memory a file source).2.program = some p ∧
      (listedRows t).length = p.loaded.length ∧
      (∀ (n : Nat) (i : Instruction), p.loaded[n]? = some i →
        ∃ row word tag, (listedRows t)[n]? = some row ∧ image.toList[n]? = some word ∧
          (∀ name, tag = some name ↔ p.symbols.lookup name = some (n : Int)) ∧
          (readRow? row = some ⟨n, (a.format.toUnsigned word).toNat, i.mnemonic, tag⟩ ↔
            tag = none ∨ i.IsNarrow)) ∧
      ∀ name (n : Nat),
        (∃ row, (listedRows t)[n]? = some row ∧ (readRow? row).bind (·.tag) = some name) ↔
          p.symbols.lookup name = some (n : Int) ∧ ∃ i, p.loaded[n]? = some i ∧ i.IsNarrow := by
  obtain ⟨p, lines, hp, ha, hl, rfl⟩ := Capacity.exists_linkedFrom_of_assemble h
  have hn := Program.isTagName_of_isAssembled ha
  have hf := hl.format_eq
  obtain ⟨-, -, -, rfl⟩ := (Capacity.listing_eq_ok_iff hp).mp ht
  rw [Capacity.assemble_snd_format]
  refine ⟨p, hp, Program.length_listedRows hn _, fun n i hi => ?_, hl.exists_shown_iff hn⟩
  obtain ⟨hlt, hinst⟩ := Program.getElem?_loaded_eq_some_iff.mp hi
  refine ⟨p.listingRow a.format i n, a.format.toWord (i.encode a.format), p.tagAt? n, ?_, ?_,
    fun name => hl.tagAt?_eq_some_iff, ?_⟩
  · rw [Program.getElem?_listedRows hn, hi]
    rfl
  · rw [← hf]
    exact Program.getElem?_store hlt hinst
  · rw [Program.readRow?_listingRow hn, Option.some.injEq, ListedRow.mk.injEq,
      ← shownColumns_eq_iff (Program.isTagName_of_tagAt? hn), Prod.ext_iff]
    simp

/-- The longest value that leaves a space, and the shortest that does not. -/
theorem listing_columns_longestNarrow :
    let a := Assembler.new .modern .standard true
    let source := ":x\nabs 0d99999\n:y\nabs 0d100000".toList
    let t := ("ADDR  WORD        INSTR     TAG\n0x00  0x0001869f  ABS 99999 x\n" ++
      "0x01  0x000186a0  ABS 100000y\n").toList
    (Capacity.assemble .unlimited a [] source).1 = .ok (.ofWords [99999, 100000]) ∧
      Capacity.listing .unlimited (Capacity.assemble .unlimited a [] source).2 = .ok t ∧
      (∃ row, (listedRows t)[0]? = some row ∧
        readRow? row = some ⟨0, 99999, "ABS 99999".toList, some ['x']⟩) ∧
      ∀ (n : Nat) row, (listedRows t)[n]? = some row →
        (readRow? row).bind (·.tag) ≠ some ['y'] := by
  intro a source t
  let p : Program :=
    ⟨[⟨.absoluteValue, 99999⟩, ⟨.absoluteValue, 100000⟩], [(['x'], 0), (['y'], 1)], .standard⟩
  have hprogram : a.programFor [] source = .ok p := by decide +kernel
  have hheld : (Capacity.assemble .unlimited a [] source).2.program = some p := by
    rw [Capacity.assemble_snd_program, hprogram]
    rfl
  have h : (Capacity.assemble .unlimited a [] source).1 = .ok (.ofWords [99999, 100000]) :=
    Capacity.assemble_fst_eq_ok_iff.mpr ⟨p, hprogram, by decide +kernel⟩
  have ht : Capacity.listing .unlimited (Capacity.assemble .unlimited a [] source).2 = .ok t := by
    rw [Capacity.listing_eq_ok_iff hheld, Capacity.assemble_snd_format]
    decide +kernel
  obtain ⟨_, hp, -, hrows, htags⟩ := listing_columns h ht
  obtain rfl := Option.some.inj (hheld.symm.trans hp)
  refine ⟨h, ht, ?_, ?_⟩
  · obtain ⟨row, word, tag, hr, hw, htag, hread⟩ := hrows 0 _ rfl
    obtain rfl : word = 99999 := Option.some.inj (hw.symm.trans (by decide +kernel))
    obtain rfl : tag = some ['x'] := (htag ['x']).mpr rfl
    exact ⟨row, hr, hread.mpr (.inr (by decide))⟩
  · intro n row hr hy
    obtain ⟨hlookup, i, hi, hnarrow⟩ := (htags ['y'] n).mp ⟨row, hr, hy⟩
    have hn : ((1 : Nat) : Int) = n := Option.some.inj hlookup
    obtain rfl := Int.ofNat.inj hn
    obtain rfl := Option.some.inj hi
    exact absurd hnarrow (by decide)

/-- A tag that is a digit goes on the number before it: two sources with different symbols have one
word and one listing. -/
theorem wideData_hides_tag :
    let a := Assembler.new .modern ⟨8, 8, by decide, by decide⟩ true
    let tagged := Capacity.assemble .unlimited a [] ":1\nabs 0d100039".toList
    let untagged := Capacity.assemble .unlimited a [] "abs 0d1000391".toList
    let t := "ADDR  WORD  INSTR     TAG\n0x00  0xc7  ABS 1000391\n".toList
    tagged.1 = .ok (.ofWords [-57]) ∧ untagged.1 = .ok (.ofWords [-57]) ∧
      Capacity.listing .unlimited tagged.2 = .ok t ∧
      Capacity.listing .unlimited untagged.2 = .ok t ∧
      tagged.2.symbols = .ok [(['1'], 0)] ∧ untagged.2.symbols = .ok [] := by
  decide +kernel

end ManchesterBaby
