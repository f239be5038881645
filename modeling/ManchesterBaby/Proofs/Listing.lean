import ManchesterBaby.Link.Listing
import ManchesterBaby.Proofs.Link.Image
import ManchesterBaby.Proofs.Mnemonic
import ManchesterBaby.Proofs.Source.Writing

/-! A listing read back: after the header it has a row for each instruction that is loaded, and the
second column of a row is the bit pattern of the word in the format of the listing. -/

namespace ManchesterBaby

/-- The column stands after the address and ends at the next space. -/
def wordColumn (row : Text) : Text := (row.drop 6).takeWhile (· != ' ')

def listedRows (listing : Text) : List Text := listing.lines.drop 1

theorem Unbroken.rightpad {t : Text} (h : Unbroken t) (n : Nat) :
    Unbroken (t.rightpad n ' ') := by
  refine h.append ?_
  intro c hc
  rw [List.eq_of_mem_replicate hc]
  decide

theorem IsToken.unbroken {t : Text} (h : IsToken t) : Unbroken t := (IsSpaced.token h).unbroken

theorem unbroken_of_solid {t : Text} (h : ∀ c ∈ t, isBlank c = false) : Unbroken t := by
  intro c hc
  rw [Bool.eq_false_iff]
  intro hb
  have hn := h c hc
  rw [isBlank_of_isLineBreak hb] at hn
  cases hn

theorem unbroken_of_isTagName {name : Text} (h : isTagName name = true) : Unbroken name := by
  simp only [isTagName, Bool.and_eq_true, Bool.not_eq_true', List.any_eq_false,
    Bool.not_eq_true] at h
  exact unbroken_of_solid h.2

theorem isToken_decimal (n : Int) : IsToken (decimal n) :=
  isToken_minus_append (isToken_toDigits .decimal n.natAbs) n

theorem isToken_hexadecimal (width : Nat) (n : Int) : IsToken (hexadecimal width n) := by
  have hd := isToken_toDigits .hex n.natAbs
  rw [hexadecimal, hexDigits_eq]
  refine isToken_minus_append (.cons (by decide) (.cons (by decide) ⟨?_, ?_⟩)) n
  · simp [List.leftpad]
  · intro c hc
    rcases List.mem_append.mp hc with hc | hc
    · rw [List.eq_of_mem_replicate hc]
      exact isSolid_of_isPlain (by decide)
    · exact hd.solid c hc

theorem length_hexadecimal_address : ∀ n < 32, (hexadecimal 4 (n : Nat)).length = 4 := by
  decide +kernel

namespace Instruction

theorem exists_mem_mnemonic (i : Instruction) : ∃ c ∈ i.mnemonic, isBlank c = false := by
  obtain ⟨c, hc⟩ := List.exists_mem_of_ne_nil _ i.kind.mnemonic_ne_nil
  exact ⟨c, i.mnemonic_eq ▸ List.mem_append_left _ hc, i.kind.mnemonic_solid c hc⟩

theorem unbroken_mnemonic (i : Instruction) : Unbroken i.mnemonic := by
  have hd : ∀ n, Unbroken (' ' :: decimal n) := fun n =>
    Unbroken.append (s := [' ']) (by decide) (isToken_decimal n).unbroken
  rw [mnemonic_eq]
  refine (unbroken_of_solid i.kind.mnemonic_solid).append ?_
  cases i.number? with
  | none => exact fun c hc => absurd hc List.not_mem_nil
  | some n => exact hd n

end Instruction

namespace Program

variable {p : Program} {f : WordFormat}

/-- The mnemonic is not blank, so trimming stops before it gets to the word. -/
theorem listingRow_eq (p : Program) (f : WordFormat) (i : Instruction) (n : Nat) :
    p.listingRow f i n =
      hexadecimal 4 n ++ "  ".toList ++ (f.hexWord (f.toWord (i.encode f)) ++ ' ' :: ' ' ::
        Text.trimEnd (List.rightpad 10 ' ' i.mnemonic ++ (p.tagAt? n).getD [])) := by
  obtain ⟨c, hc, hb⟩ := i.exists_mem_mnemonic
  have ht : ∃ c ∈ List.rightpad 10 ' ' i.mnemonic ++ (p.tagAt? n).getD [], isBlank c = false :=
    ⟨c, List.mem_append_left _ (List.mem_append_left _ hc), hb⟩
  rw [listingRow, List.append_assoc _ (List.rightpad 10 ' ' i.mnemonic), Text.trimEnd_append ht]
  simp only [List.append_assoc]
  rfl

theorem wordColumn_listingRow (p : Program) (f : WordFormat) (i : Instruction) {n : Nat}
    (hn : n < storeSize) :
    wordColumn (p.listingRow f i n) = f.hexWord (f.toWord (i.encode f)) := by
  have hl : (hexadecimal 4 n ++ "  ".toList).length = 6 := by
    rw [List.length_append, length_hexadecimal_address n hn]
    rfl
  have hs : ∀ c ∈ f.hexWord (f.toWord (i.encode f)), (c != ' ') = true := by
    intro c hc
    rw [bne_iff_ne]
    rintro rfl
    exact (isToken_hexadecimal _ _).space_notMem hc
  rw [wordColumn, listingRow_eq, List.drop_append, List.drop_eq_nil_of_le hl.le, hl]
  simp [List.takeWhile_append_of_pos hs]

theorem isTagName_of_tagAt? (h : ∀ name ∈ p.symbols.names, isTagName name = true) {n : Int} :
    ∀ name ∈ p.tagAt? n, isTagName name = true := by
  intro name hm
  obtain ⟨s, hs, rfl⟩ := Option.map_eq_some_iff.mp hm
  exact h s.1 (List.mem_map_of_mem (List.mem_of_find?_eq_some hs))

theorem unbroken_listingRow (h : ∀ name ∈ p.symbols.names, isTagName name = true)
    (i : Instruction) (n : Nat) : Unbroken (p.listingRow f i n) := by
  have hs : Unbroken "  ".toList := by decide
  have ht : Unbroken ((p.tagAt? n).getD []) := by
    cases hf : p.tagAt? n with
    | none => decide
    | some name => exact unbroken_of_isTagName (isTagName_of_tagAt? h name hf)
  have hw := isToken_hexadecimal (f.wordDigits + 2) (f.toUnsigned (f.toWord (i.encode f)))
  have hr := (((((isToken_hexadecimal 4 n).unbroken.append hs).append hw.unbroken).append hs).append
    (i.unbroken_mnemonic.rightpad 10)).append ht
  exact fun c hc => hr c (Text.mem_of_mem_trimEnd hc)

theorem unbroken_listingHeader (f : WordFormat) : Unbroken (listingHeader f) := by
  have ha : Unbroken "ADDR".toList := by decide
  have hw : Unbroken "WORD".toList := by decide
  have hi : Unbroken "INSTR".toList := by decide
  have ht : Unbroken "TAG".toList := by decide
  exact (((ha.rightpad 6).append (hw.rightpad _)).append (hi.rightpad 10)).append ht

theorem listedRows_listing (h : ∀ name ∈ p.symbols.names, isTagName name = true)
    (f : WordFormat) :
    listedRows (p.listing f) = p.loaded.zipIdx.map fun (i, n) => p.listingRow f i n := by
  have hu : ∀ l ∈ listingHeader f :: p.loaded.zipIdx.map fun (i, n) => p.listingRow f i n,
      Unbroken l := by
    refine List.forall_mem_cons.mpr ⟨unbroken_listingHeader f, ?_⟩
    intro row hr
    obtain ⟨⟨i, n⟩, -, rfl⟩ := List.mem_map.mp hr
    exact unbroken_listingRow h i n
  rw [listedRows, listing, Text.lines_joinLines_append_feed (List.cons_ne_nil _ _) hu]
  rfl

theorem length_listedRows (h : ∀ name ∈ p.symbols.names, isTagName name = true)
    (f : WordFormat) : (listedRows (p.listing f)).length = p.loaded.length := by
  rw [listedRows_listing h, List.length_map, List.length_zipIdx]

theorem getElem?_loaded_eq_some_iff {n : Nat} {i : Instruction} :
    p.loaded[n]? = some i ↔ n < storeSize ∧ p.instructions[n]? = some i := by
  rw [loaded, List.getElem?_take, Option.ite_none_right_eq_some]

theorem getElem?_listedRows (h : ∀ name ∈ p.symbols.names, isTagName name = true)
    (f : WordFormat) (n : Nat) :
    (listedRows (p.listing f))[n]? = p.loaded[n]?.map fun i => p.listingRow f i n := by
  rw [listedRows_listing h, List.getElem?_map, List.getElem?_zipIdx, Option.map_map, Nat.zero_add]
  rfl

theorem wordColumn_of_listedRows (h : ∀ name ∈ p.symbols.names, isTagName name = true)
    {row : Text} {n : Nat} (hr : (listedRows (p.listing f))[n]? = some row) :
    ∃ i, p.instructions[n]? = some i ∧ n < storeSize ∧
      wordColumn row = f.hexWord (f.toWord (i.encode f)) := by
  rw [getElem?_listedRows h, Option.map_eq_some_iff] at hr
  obtain ⟨i, hi, rfl⟩ := hr
  obtain ⟨hn, hi⟩ := getElem?_loaded_eq_some_iff.mp hi
  exact ⟨i, hi, hn, p.wordColumn_listingRow f i hn⟩

end Program

end ManchesterBaby
