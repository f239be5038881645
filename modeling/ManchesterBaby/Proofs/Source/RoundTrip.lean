import ManchesterBaby.Proofs.Outcome
import ManchesterBaby.Proofs.Source.Grammar

/-! Reading what has been written. What is written is spelled by the grammar, and nothing is cut
from it on the way. -/

namespace ManchesterBaby

variable {r : Radix} {v : Value}

namespace Value

theorem spelled_write (h : v.Writable r) : Spelled (v.write r) v := by
  cases v with
  | reference name =>
    obtain ⟨hne, hb⟩ := isTagName_iff.mp (IsWritableName.isTagName h)
    exact .reference hne hb
  | literal n =>
    have hr : r.letter.toLower = r.letter := by cases r <;> rfl
    have hm : minus n = sign (n < 0) := by simp [minus, sign]
    have hn : signed (n < 0) n.natAbs = n := by
      simp only [signed, decide_eq_true_eq]
      omega
    change r = .decimal → fitsDecimal n = true at h
    have hd : IsNumeral r (Nat.toDigits r.base n.natAbs) n.natAbs :=
      isNumeral_toDigits (by simpa only [fitsDecimal, Int.natAbs_natCast] using h)
    have hs := Spelled.literal (decide (n < 0)) hr hd
    rwa [← hm, hn] at hs

theorem read_write (h : v.Writable r) : Value.read (v.write r) = .ok v := by
  rw [read_eq_ok_iff, (IsSpaced.token (isToken_write h)).trim]
  exact .inl (spelled_write h)

end Value

theorem Dialect.writeEntry_bare {kind : Kind} (d : Dialect) (hk : kind.hasAddress = false)
    (ha : kind ≠ .absoluteValue) (value : Text) :
    d.writeEntry kind value = d.writeEntry kind [] := by
  cases kind with
  | skipNextIfNegative | stop => cases d <;> rfl
  | absoluteValue => exact absurd rfl ha
  | jump | relativeJump | negate | store | subtract => cases hk

namespace Statement

theorem spelled_write {s : Statement} (d : Dialect) (h : s.Writable r) :
    Spelled d (s.write d r) s := by
  cases s with
  | tag name =>
    obtain ⟨hne, hb⟩ := Value.isTagName_iff.mp (IsWritableName.isTagName h)
    have ht : Spelled d (':' :: ([] ++ name)) (.tag name) := .tag rfl hne hb
    exact ht
  | entry e =>
    obtain ⟨he, hv⟩ := h
    cases e with
    | data v =>
      have hr := Value.read_write (v := v) hv
      cases d <;> exact .data hr
    | order kind operand =>
      by_cases hk : kind.hasAddress = true
      · exact .entry (.order hk (Value.read_write hv))
      · have hf : kind.hasAddress = false := Bool.eq_false_iff.mpr hk
        obtain rfl := he.2 hf
        change Spelled d (d.writeEntry kind _) _
        rw [d.writeEntry_bare hf he.1]
        exact .entry (.bare hf he.1)

theorem read_write {s : Statement} (d : Dialect) (h : s.Writable r) :
    Statement.read d (s.write d r) = .ok s := by
  have hs := isSpaced_write d h
  have hb : (body (s.write d r)).lower = s.write d r := by
    rw [body, hs.stripComment, hs.trim, hs.lower]
  have hc : IsCode (s.write d r) := hb ▸ isCode_body _
  rw [read_eq_readCode, hb]
  exact (readCode_eq_ok_iff hc).mpr (.inl (spelled_write d h))

end Statement

theorem readLine_write {s : Statement} (d : Dialect) (location : Option Location)
    (h : s.Writable r) :
    readLine d location (s.write d r) = .ok ⟨s, location, some (s.write d r)⟩ := by
  rw [readLine, Statement.read_write d h, (Statement.isSpaced_write d h).withoutFeeds]

/-- A written program is read as it is, each statement on a line of its own and at the start of
it. -/
theorem readSource_writeProgram {radix : Nat → Radix} {statements : List Statement} (d : Dialect)
    (file : Text) (h : WritableProgram radix statements) :
    readSource d file (writeProgram d radix statements) =
      .ok (statements.mapIdx fun i s =>
        ⟨s, some ⟨file, i + 1, 1⟩, some (s.write d (radix i))⟩) := by
  have hw : ∀ i (hi : i < statements.length), statements[i].Writable (radix i) := fun i hi =>
    h (statements[i], i) (List.mk_mem_zipIdx_iff_getElem?.mpr (List.getElem?_eq_getElem hi))
  have hs : ∀ l ∈ statements.mapIdx (fun i s => s.write d (radix i)), IsSpaced l := by
    intro l hl
    obtain ⟨i, hi, rfl⟩ := List.mem_mapIdx.mp hl
    exact Statement.isSpaced_write d (hw i hi)
  have hl : (writeProgram d radix statements).lines =
      statements.mapIdx fun i s => s.write d (radix i) :=
    Text.lines_joinLines fun l hl => ⟨(hs l hl).nonempty, (hs l hl).unbroken⟩
  rw [readSource, hl, mapM_eq_ok_iff, List.filter_eq_self.mpr, List.forall₂_iff_get]
  · refine ⟨by simp, ?_⟩
    intro i h₁ h₂
    have hi : i < statements.length := by simpa using h₂
    have hc := (Statement.isSpaced_write d (hw i hi)).firstColumn
    simp only [List.get_eq_getElem, List.getElem_zipIdx, List.getElem_mapIdx, hc,
      readLine_write d _ (hw i hi)]
    simp [Int.add_comm]
  · rintro ⟨l, i⟩ hm
    have hm := hs l (List.fst_mem_of_mem_zipIdx hm)
    simp [hm.not_isVoid]

end ManchesterBaby
