import ManchesterBaby.Proofs.Text

/-! Trimming and lowering are done once for all: margins are gone after the first trimming, small
forms are their own small forms, and lowering brings no blank to either end. -/

namespace ManchesterBaby

/-- A set of numbers as the bits of one, by which two sets are quick to compare. -/
def bits (s : List Nat) : Nat := s.foldr (fun n b => 1 <<< n ||| b) 0

theorem testBit_bits (s : List Nat) (n : Nat) : (bits s).testBit n = decide (n ∈ s) := by
  induction s with
  | nil => simp [bits]
  | cons k s ih =>
    change (1 <<< k ||| bits s).testBit n = _
    rw [Nat.testBit_or, ih, Nat.one_shiftLeft, Nat.testBit_two_pow]
    by_cases h : k = n
    · simp [h]
    · simp [h, Ne.symm h]

theorem notMem_of_bits {s t : List Nat} (h : bits s &&& bits t = 0) {n : Nat} (hn : n ∈ s) :
    n ∉ t := by
  intro ht
  have hb : (bits s &&& bits t).testBit n = true := by
    rw [Nat.testBit_and, testBit_bits, testBit_bits, decide_eq_true hn, decide_eq_true ht]
    rfl
  rw [h, Nat.zero_testBit] at hb
  cases hb

namespace CaseRun

/-- What a run lowers a code point to. -/
def small (r : CaseRun) (n : Nat) : Nat := ((n : Int) + r.shift).toNat

def members (r : CaseRun) : List Nat :=
  List.range' r.first ((r.last - r.first) / r.stride + 1) r.stride

theorem mem_members {r : CaseRun} {n : Nat} (h : r.covers n = true) : n ∈ r.members := by
  simp only [covers, Bool.and_eq_true, decide_eq_true_eq, beq_iff_eq] at h
  obtain ⟨⟨hf, hl⟩, hm⟩ := h
  rw [members, List.mem_range']
  refine ⟨(n - r.first) / r.stride, ?_, ?_⟩
  · exact Nat.lt_succ_of_le (Nat.div_le_div_right (by omega))
  · have hd := Nat.div_add_mod (n - r.first) r.stride
    omega

end CaseRun

def capitals : List Nat := caseRuns.flatMap (·.members)

def smalls : List Nat := caseRuns.flatMap fun r => r.members.map r.small

def blanks : List Nat :=
  List.range' 9 5 ++ List.range' 28 5 ++ [0x85, 0xA0, 0x1680] ++ List.range' 0x2000 11 ++
    [0x2028, 0x2029, 0x202F, 0x205F, 0x3000]

theorem mem_blanks {c : Char} (h : isBlank c = true) : c.toNat ∈ blanks := by
  simp only [isBlank, Bool.or_eq_true, Bool.and_eq_true, decide_eq_true_eq, beq_iff_eq] at h
  simp only [blanks, List.mem_append, List.mem_range'_1, List.mem_cons, List.not_mem_nil]
  omega

theorem mem_capitals {r : CaseRun} {n : Nat} (hr : r ∈ caseRuns) (h : r.covers n = true) :
    n ∈ capitals :=
  List.mem_flatMap.mpr ⟨r, hr, r.mem_members h⟩

theorem mem_smalls {r : CaseRun} {n : Nat} (hr : r ∈ caseRuns) (h : r.covers n = true) :
    r.small n ∈ smalls :=
  List.mem_flatMap.mpr ⟨r, hr, List.mem_map_of_mem (r.mem_members h)⟩

/-- No small form is a capital with a small form of its own, and none is blank. -/
theorem notMem_of_mem_smalls {n : Nat} (h : n ∈ smalls) :
    n ∉ capitals ++ (0x130 :: 0x3A3 :: blanks) :=
  notMem_of_bits (by decide +kernel) h

theorem toNat_ofNat_small {r : CaseRun} {n : Nat} (hr : r ∈ caseRuns) (h : r.covers n = true) :
    (Char.ofNat (r.small n)).toNat = r.small n := by
  have hruns : ∀ r ∈ caseRuns, r.small r.last < 0xD800 ∨
      0xDFFF < r.small r.first ∧ r.small r.last < 0x110000 := by decide +kernel
  have hrun := hruns r hr
  simp only [CaseRun.covers, Bool.and_eq_true, decide_eq_true_eq] at h
  have hfirst : r.small r.first ≤ r.small n := by
    simp only [CaseRun.small]
    omega
  have hlast : r.small n ≤ r.small r.last := by
    simp only [CaseRun.small]
    omega
  have hv : (r.small n).isValidChar := by
    rcases hrun with hrun | hrun
    · exact .inl (Nat.lt_of_le_of_lt hlast hrun)
    · exact .inr ⟨Nat.lt_of_lt_of_le hrun.1 hfirst, Nat.lt_of_le_of_lt hlast hrun.2⟩
  rw [Char.ofNat, dif_pos hv]
  rfl

/-- Left alone by lowering wherever it stands. -/
structure IsSmall (c : Char) : Prop where
  not_sigma : c ≠ 'Σ'
  lowerChar_eq : lowerChar c = [c]

theorem isSmall_of_mem_smalls {c : Char} (h : c.toNat ∈ smalls) : IsSmall c := by
  have hn := notMem_of_mem_smalls h
  simp only [List.mem_append, List.mem_cons, not_or] at hn
  have hi : c ≠ 'İ' := fun he => hn.2.1 (he ▸ rfl)
  refine ⟨fun he => hn.2.2.1 (he ▸ rfl), ?_⟩
  rw [lowerChar, if_neg hi, List.find?_eq_none.mpr]
  exact fun r hr hc => hn.1 (mem_capitals hr hc)

theorem not_blank_of_mem_smalls {c : Char} (h : c.toNat ∈ smalls) : isBlank c = false := by
  have hn := notMem_of_mem_smalls h
  simp only [List.mem_append, List.mem_cons, not_or] at hn
  exact Bool.eq_false_iff.mpr fun hb => hn.2.2.2 (mem_blanks hb)

/-- Stands for `c` in a lowered text. -/
structure SmallFor (c d : Char) : Prop where
  isSmall : IsSmall d
  not_blank : isBlank c = false → isBlank d = false

theorem smallFor_of_small (c : Char) {d : Char}
    (h : d ≠ 'Σ' ∧ lowerChar d = [d] ∧ isBlank d = false) : SmallFor c d :=
  ⟨⟨h.1, h.2.1⟩, fun _ => h.2.2⟩

theorem smallFor_of_mem_lowerChar {c d : Char} (hs : c ≠ 'Σ') (h : d ∈ lowerChar c) :
    SmallFor c d := by
  by_cases hi : c = 'İ'
  · rw [lowerChar, if_pos hi, List.mem_cons, List.mem_singleton] at h
    rcases h with rfl | rfl
    · exact smallFor_of_small c (by decide +kernel)
    · exact smallFor_of_small c (by decide +kernel)
  · cases hf : caseRuns.find? (·.covers c.toNat) with
    | none =>
      have hl : lowerChar c = [c] := by rw [lowerChar, if_neg hi, hf]
      obtain rfl : d = c := by simpa [hl] using h
      exact ⟨⟨hs, hl⟩, id⟩
    | some r =>
      have hr : r ∈ caseRuns := List.mem_of_find?_eq_some hf
      have hc : r.covers c.toNat = true := by simpa using List.find?_some hf
      have hl : lowerChar c = [Char.ofNat (r.small c.toNat)] := by
        rw [lowerChar, if_neg hi, hf]
        rfl
      obtain rfl : d = Char.ofNat (r.small c.toNat) := by simpa [hl] using h
      have hm : (Char.ofNat (r.small c.toNat)).toNat ∈ smalls := by
        rw [toNat_ofNat_small hr hc]
        exact mem_smalls hr hc
      exact ⟨isSmall_of_mem_smalls hm, fun _ => not_blank_of_mem_smalls hm⟩

theorem lowerChar_of_isBlank {c : Char} (h : isBlank c = true) : lowerChar c = [c] := by
  have hi : c ≠ 'İ' := by
    rintro rfl
    cases h
  rw [lowerChar, if_neg hi, List.find?_eq_none.mpr]
  exact fun r hr hc => notMem_of_bits (by decide +kernel) (mem_blanks h) (mem_capitals hr hc)

theorem lowerChar_ne_nil (c : Char) : lowerChar c ≠ [] := by
  rw [lowerChar]
  split
  · simp
  · split <;> simp

namespace Text

/-- Lowering goes character by character, and none is lost. -/
theorem exists_lowerAfter_cons (before : Text) (c : Char) (t : Text) :
    ∃ small, lowerAfter before (c :: t) = small ++ lowerAfter (c :: before) t ∧ small ≠ [] ∧
      ∀ d ∈ small, SmallFor c d := by
  refine ⟨_, rfl, ?_⟩
  by_cases hs : c = 'Σ'
  · subst hs
    rw [if_pos rfl]
    refine ⟨List.cons_ne_nil _ _, ?_⟩
    rw [List.forall_mem_singleton]
    split
    · exact smallFor_of_small _ (by decide +kernel)
    · exact smallFor_of_small _ (by decide +kernel)
  · rw [if_neg hs]
    exact ⟨lowerChar_ne_nil c, fun d hm => smallFor_of_mem_lowerChar hs hm⟩

theorem isSmall_of_mem_lowerAfter {before t : Text} {d : Char} (h : d ∈ lowerAfter before t) :
    IsSmall d := by
  induction t generalizing before with
  | nil => simp [lowerAfter] at h
  | cons c t ih =>
    obtain ⟨small, he, -, hd⟩ := exists_lowerAfter_cons before c t
    rw [he, List.mem_append] at h
    rcases h with h | h
    · exact (hd d h).isSmall
    · exact ih h

/-- Lowering brings no blank in. -/
theorem mem_of_blank_mem_lowerAfter {before t : Text} {d : Char} (h : d ∈ lowerAfter before t)
    (hd : isBlank d = true) : d ∈ t := by
  induction t generalizing before with
  | nil => simp [lowerAfter] at h
  | cons c t ih =>
    by_cases hc : isBlank c = true
    · have hs : c ≠ 'Σ' := by
        rintro rfl
        cases hc
      rw [lowerAfter, if_neg hs, lowerChar_of_isBlank hc, List.mem_append] at h
      rcases h with h | h
      · exact List.mem_singleton.mp h ▸ List.mem_cons_self
      · exact List.mem_cons_of_mem c (ih h)
    · obtain ⟨small, he, -, hsmall⟩ := exists_lowerAfter_cons before c t
      rw [he, List.mem_append] at h
      rcases h with h | h
      · have hn := (hsmall d h).not_blank (Bool.eq_false_iff.mpr hc)
        rw [hd] at hn
        cases hn
      · exact List.mem_cons_of_mem c (ih h)

theorem lower_lower (t : Text) : t.lower.lower = t.lower :=
  lower_eq_self_iff.mpr fun _ h =>
    ⟨(isSmall_of_mem_lowerAfter h).not_sigma, (isSmall_of_mem_lowerAfter h).lowerChar_eq⟩

theorem not_blank_head_lower {t : Text} (h : ∀ c ∈ t.head?, isBlank c = false) :
    ∀ d ∈ t.lower.head?, isBlank d = false := by
  cases t with
  | nil => simp [lower, lowerAfter]
  | cons c t =>
    obtain ⟨small, he, hne, hd⟩ := exists_lowerAfter_cons [] c t
    rw [lower, he, List.head?_append_of_ne_nil _ hne]
    exact fun d hm => (hd d (List.mem_of_mem_head? hm)).not_blank (h c rfl)

theorem not_blank_last_lowerAfter {before t : Text} (h : ∀ c ∈ t.getLast?, isBlank c = false) :
    ∀ d ∈ (lowerAfter before t).getLast?, isBlank d = false := by
  induction t generalizing before with
  | nil => simp [lowerAfter]
  | cons c t ih =>
    obtain ⟨small, he, hne, hd⟩ := exists_lowerAfter_cons before c t
    rw [he]
    cases t with
    | nil =>
      rw [lowerAfter, List.append_nil]
      exact fun d hm => (hd d (List.mem_of_mem_getLast? hm)).not_blank (h c rfl)
    | cons b t =>
      obtain ⟨more, hm, hmore, -⟩ := exists_lowerAfter_cons (c :: before) b t
      have hn : lowerAfter (c :: before) (b :: t) ≠ [] := by
        rw [hm]
        exact List.append_ne_nil_of_left_ne_nil hmore _
      rw [List.getLast?_append_of_ne_nil _ hn]
      exact ih fun d hl => h d (by rwa [List.getLast?_cons_cons])

theorem exists_trimEnd_margin (t : Text) :
    ∃ right, right.all isBlank = true ∧ t.trimStart = t.trim ++ right := by
  refine ⟨(t.trimStart.reverse.takeWhile isBlank).reverse, ?_, ?_⟩
  · rw [List.all_reverse]
    exact List.all_eq_true.mpr fun _ hc => List.mem_takeWhile_imp hc
  · rw [trim, trimEnd, ← List.reverse_append, List.takeWhile_append_dropWhile,
      List.reverse_reverse]

theorem exists_margins (t : Text) :
    ∃ left right, left.all isBlank = true ∧ right.all isBlank = true ∧
      t = left ++ (t.trim ++ right) := by
  obtain ⟨right, hr, ht⟩ := exists_trimEnd_margin t
  refine ⟨t.takeWhile isBlank, right, ?_, hr, ?_⟩
  · exact List.all_eq_true.mpr fun _ hc => List.mem_takeWhile_imp hc
  · rw [← ht, trimStart, List.takeWhile_append_dropWhile]

/-- Without a margin at the end there is only one before the text. -/
theorem exists_gap {t : Text} (h : ∀ c ∈ t.getLast?, isBlank c = false) :
    ∃ gap, gap.all isBlank = true ∧ t = gap ++ t.trim := by
  obtain ⟨left, right, hl, hr, ht⟩ := exists_margins t
  rcases List.eq_nil_or_concat right with rfl | ⟨right, c, rfl⟩
  · rw [List.append_nil] at ht
    exact ⟨left, hl, ht⟩
  · have hb : isBlank c = false := h c (by rw [ht]; simp)
    simp [hb] at hr

theorem not_blank_last_trim (t : Text) : ∀ c ∈ t.trim.getLast?, isBlank c = false := by
  rw [trim, trimEnd, List.getLast?_reverse]
  intro c hc
  have hn := List.head?_dropWhile_not isBlank t.trimStart.reverse
  rw [hc] at hn
  exact hn

theorem not_blank_head_trim (t : Text) : ∀ c ∈ t.trim.head?, isBlank c = false := by
  obtain ⟨right, -, hr⟩ := exists_trimEnd_margin t
  intro c hc
  have hs : t.trimStart.head? = some c := by
    rw [hr, List.head?_append, hc]
    rfl
  have hn := List.head?_dropWhile_not isBlank t
  rw [trimStart] at hs
  rw [hs] at hn
  exact hn

theorem trim_lower_trim (t : Text) : t.trim.lower.trim = t.trim.lower :=
  trim_eq_self (not_blank_head_lower (not_blank_head_trim t))
    (not_blank_last_lowerAfter (not_blank_last_trim t))

end Text

end ManchesterBaby
