import ManchesterBaby.Proofs.Text

/-! Capital and small ASCII letters. Which of the two a text has is seen neither where it is cut nor
where it is lowered. -/

namespace ManchesterBaby

/-- What is the same for both forms of each letter is the same for a character and its small
form. -/
theorem apply_toLower {α : Type} (f : Char → α)
    (h : ∀ n < 26, f (Char.ofNat (n + 97)) = f (Char.ofNat (n + 65))) (c : Char) :
    f c.toLower = f c := by
  by_cases hc : c.val ≥ 'A'.val ∧ c.val ≤ 'Z'.val
  · have hb : 65 ≤ c.toNat ∧ c.toNat ≤ 90 := hc
    obtain ⟨n, hn, hu⟩ : ∃ n < 26, c.toNat = n + 65 := ⟨c.toNat - 65, by omega, by omega⟩
    have he : c = Char.ofNat (n + 65) := by rw [← hu, Char.ofNat_toNat]
    have hl : ∀ n < 26, (Char.ofNat (n + 65)).toLower = Char.ofNat (n + 97) := by decide
    rw [he, hl n hn]
    exact h n hn
  · have hl : c.toLower = c := dif_neg hc
    rw [hl]

theorem isBlank_toLower (c : Char) : isBlank c.toLower = isBlank c :=
  apply_toLower isBlank (by decide) c

theorem isLineBreak_toLower (c : Char) : isLineBreak c.toLower = isLineBreak c :=
  apply_toLower isLineBreak (by decide) c

theorem isCased_toLower (c : Char) : isCased c.toLower = isCased c :=
  apply_toLower isCased (by decide +kernel) c

theorem isCaseIgnored_toLower (c : Char) : isCaseIgnored c.toLower = isCaseIgnored c :=
  apply_toLower isCaseIgnored (by decide +kernel) c

theorem lowerChar_toLower (c : Char) : lowerChar c.toLower = lowerChar c :=
  apply_toLower lowerChar (by decide +kernel) c

theorem toLower_eq_iff {d : Char}
    (h : ∀ n < 26, Char.ofNat (n + 97) ≠ d ∧ Char.ofNat (n + 65) ≠ d) (c : Char) :
    c.toLower = d ↔ c = d := by
  have he : decide (c.toLower = d) = decide (c = d) :=
    apply_toLower (fun c => decide (c = d))
      (fun n hn => by rw [decide_eq_false (h n hn).1, decide_eq_false (h n hn).2]) c
  simpa using he

namespace Text

/-- The ASCII letters in their small forms. -/
def lowerLetters (t : Text) : Text := t.map Char.toLower

variable (t : Text)

theorem takeWhile_lowerLetters {p : Char → Bool} (h : ∀ c : Char, p c.toLower = p c) :
    (lowerLetters t).takeWhile p = lowerLetters (t.takeWhile p) := by
  rw [lowerLetters, List.takeWhile_map, lowerLetters]
  exact congrArg _ (congrArg (fun q => t.takeWhile q) (funext h))

theorem dropWhile_lowerLetters {p : Char → Bool} (h : ∀ c : Char, p c.toLower = p c) :
    (lowerLetters t).dropWhile p = lowerLetters (t.dropWhile p) := by
  rw [lowerLetters, List.dropWhile_map, lowerLetters]
  exact congrArg _ (congrArg (fun q => t.dropWhile q) (funext h))

theorem splitOnP_lowerLetters {p : Char → Bool} (h : ∀ c : Char, p c.toLower = p c) :
    (lowerLetters t).splitOnP p = (t.splitOnP p).map lowerLetters := by
  induction t with
  | nil => rfl
  | cons c t ih =>
    change (c.toLower :: lowerLetters t).splitOnP p = _
    rw [List.splitOnP_cons_eq_if_modifyHead, List.splitOnP_cons_eq_if_modifyHead, h, ih]
    split
    · rfl
    · cases t.splitOnP p <;> rfl

theorem trim_lowerLetters : (lowerLetters t).trim = lowerLetters t.trim := by
  have hr : ∀ s : Text, (lowerLetters s).reverse = lowerLetters s.reverse := fun s =>
    List.map_reverse.symm
  simp only [trim, trimStart, trimEnd, dropWhile_lowerLetters _ isBlank_toLower, hr]

theorem casedNext_lowerLetters : casedNext (lowerLetters t) = casedNext t := by
  rw [casedNext, casedNext, dropWhile_lowerLetters t isCaseIgnored_toLower, lowerLetters,
    List.head?_map, Option.map_map]
  exact congrArg (fun q => (Option.map q _).getD false) (funext isCased_toLower)

/-- A capital sigma looks at the letters around it, which are letters in both forms. -/
theorem lowerAfter_lowerLetters (before : Text) :
    lowerAfter (lowerLetters before) (lowerLetters t) = lowerAfter before t := by
  induction t generalizing before with
  | nil => rfl
  | cons c t ih =>
    have hs : c.toLower = 'Σ' ↔ c = 'Σ' := toLower_eq_iff (by decide) c
    change lowerAfter _ (c.toLower :: lowerLetters t) = _
    simp only [lowerAfter, hs, casedNext_lowerLetters, lowerChar_toLower]
    exact congrArg _ (ih (c :: before))

theorem lower_lowerLetters : (lowerLetters t).lower = t.lower := lowerAfter_lowerLetters t []

end Text

end ManchesterBaby
