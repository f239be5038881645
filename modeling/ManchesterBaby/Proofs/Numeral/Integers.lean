import ManchesterBaby.Proofs.Source.Value
import ManchesterBaby.Text.Lines

/-! Which texts are integers of settings: an optional sign, an optional marker that names the radix,
and digits that single underscores may set apart. -/

namespace ManchesterBaby

/-- No underscore stands at an end or next to another. -/
def WellGrouped (t : Text) : Prop := ∀ group ∈ t.pieces '_', group ≠ []

/-- A numeral in groups of digits, with one underscore between each two. -/
structure IsGrouped (r : Radix) (t : Text) (n : Nat) : Prop where
  wellGrouped : WellGrouped t
  numeral : IsNumeral r (t.filter (· != '_')) n

/-- Behind a marker, whose zero may be of any script, one underscore may stand before the first
digit. Without a marker the radix is ten, and only zero may begin with a zero. -/
inductive IsMagnitude : Text → Nat → Prop
  | marked {r : Radix} {z m : Char} {gap t : Text} {n : Nat} (hr : r ≠ .decimal)
      (hz : decimalDigit? z = some 0) (hm : m.toLower = r.letter) (hg : gap = [] ∨ gap = ['_'])
      (h : IsGrouped r t n) : IsMagnitude (z :: m :: (gap ++ t)) n
  | decimal {t : Text} {n : Nat} (h : IsGrouped .decimal t n)
      (hz : t.head?.bind decimalDigit? = some 0 → n = 0) : IsMagnitude t n

inductive IsInteger : Text → Int → Prop
  | unsigned {t : Text} {n : Nat} (h : IsMagnitude t n) : IsInteger t n
  | positive {t : Text} {n : Nat} (h : IsMagnitude t n) : IsInteger ('+' :: t) n
  | negative {t : Text} {n : Nat} (h : IsMagnitude t n) : IsInteger ('-' :: t) (-n)

variable {r : Radix} {c d : Char} {t : Text} {n : Nat}

theorem not_wellGrouped_nil : ¬WellGrouped [] := fun h => h [] (by simp [Text.pieces]) rfl

theorem not_wellGrouped_underscore (t : Text) : ¬WellGrouped ('_' :: t) := fun h =>
  h [] (by rw [Text.pieces_cons, if_pos rfl]; exact List.mem_cons_self) rfl

theorem wellGrouped_singleton (h : c ≠ '_') : WellGrouped [c] := by
  rw [WellGrouped, Text.pieces_of_not_mem (by simpa using h.symm)]
  simp

theorem wellGrouped_cons_underscore_iff (h : c ≠ '_') :
    WellGrouped (c :: '_' :: t) ↔ WellGrouped t := by
  simp [WellGrouped, Text.pieces_cons, h, Text.consFirst]

theorem wellGrouped_cons_cons_iff (hc : c ≠ '_') (hd : d ≠ '_') :
    WellGrouped (c :: d :: t) ↔ WellGrouped (d :: t) := by
  have hp : ∃ group groups, Text.pieces '_' (d :: t) = (d :: group) :: groups := by
    rw [Text.pieces_cons, if_neg hd]
    cases Text.pieces '_' t with
    | nil => exact ⟨[], [], rfl⟩
    | cons group groups => exact ⟨group, groups, rfl⟩
  obtain ⟨group, groups, hp⟩ := hp
  simp [WellGrouped, Text.pieces_cons '_' c, hc, hp, Text.consFirst]

theorem digit?_underscore (base : Nat) : digit? base '_' = none := by
  have h : (decimalDigit? '_').or (letterDigit? '_') = none := by decide
  rw [digit?, h, Option.filter_none]

theorem groupedDigits?_eq_some_iff {base : Nat} {ds : List Nat} :
    groupedDigits? base t = some ds ↔
      WellGrouped t ∧ (t.filter (· != '_')).mapM (digit? base) = some ds := by
  fun_induction groupedDigits? base t generalizing ds with
  | case1 => simp [not_wellGrouped_nil]
  | case2 c =>
    by_cases hc : c = '_'
    · simp [hc, digit?_underscore, not_wellGrouped_underscore]
    · cases hd : digit? base c <;> simp [hc, hd, wellGrouped_singleton hc]
  | case3 c rest ih =>
    by_cases hc : c = '_'
    · simp [hc, digit?_underscore, not_wellGrouped_underscore]
    · cases hd : digit? base c with
      | none => simp [hc, hd]
      | some d =>
        simp [hc, hd, wellGrouped_cons_underscore_iff hc, ih, Option.bind_eq_some_iff, and_assoc]
  | case4 c rest hne hu ih =>
    obtain ⟨e, u, rfl⟩ := List.exists_cons_of_ne_nil hne
    have he : e ≠ '_' := fun h => hu u (h ▸ rfl)
    by_cases hc : c = '_'
    · simp [hc, digit?_underscore, not_wellGrouped_underscore]
    · cases hd : digit? base c with
      | none => simp [hc, hd]
      | some d =>
        simp [hc, hd, he, wellGrouped_cons_cons_iff hc he, ih, Option.bind_eq_some_iff, and_assoc]

theorem readGrouped?_eq_some_iff : readGrouped? r t = some n ↔ IsGrouped r t n := by
  have hg : readGrouped? r t = some n ↔ WellGrouped t ∧
      ((t.filter (· != '_')).mapM (digit? r.base) >>= number? r) = some n := by
    simp only [readGrouped?, Option.bind_eq_bind, Option.bind_eq_some_iff,
      groupedDigits?_eq_some_iff, and_assoc, exists_and_left]
  rw [hg, plainDigits_eq_some_iff]
  exact ⟨fun h => ⟨h.1, h.2⟩, fun h => ⟨h.wellGrouped, h.numeral⟩⟩

/-- The marker that a text begins with. -/
def marker? (t : Text) : Option (Radix × Text) :=
  [Radix.hex, .octal, .binary].findSome? fun r => (afterMarker? r t).map (r, ·)

theorem marker?_eq_some_iff {rest : Text} :
    marker? t = some (r, rest) ↔ ∃ z m, t = z :: m :: rest ∧ r ≠ .decimal ∧
      decimalDigit? z = some 0 ∧ m.toLower = r.letter := by
  have hf : ∀ {r : Radix} {rest : Text}, marker? t = some (r, rest) →
      afterMarker? r t = some rest := by
    intro r rest h
    obtain ⟨r', -, hr⟩ := List.exists_of_findSome?_eq_some h
    obtain ⟨rest', ha, he⟩ := Option.map_eq_some_iff.mp hr
    cases he
    exact ha
  constructor
  · exact fun h => afterMarker?_eq_some_iff.mp (hf h)
  · intro h
    have ha := afterMarker?_eq_some_iff.mpr h
    obtain ⟨z, m, rfl, hr, hz, hm⟩ := h
    have hs : (marker? (z :: m :: rest)).isSome := by
      rw [marker?, List.findSome?_isSome_iff]
      exact ⟨r, by cases r <;> simp at hr ⊢, by rw [ha]; rfl⟩
    obtain ⟨⟨r', rest'⟩, h'⟩ := Option.isSome_iff_exists.mp hs
    obtain ⟨z', m', he, -, -, hm'⟩ := afterMarker?_eq_some_iff.mp (hf h')
    cases he
    rw [h', Value.letter_inj hm hm']

theorem readMagnitude?_of_marker {rest : Text} (h : marker? t = some (r, rest)) :
    readMagnitude? t = some n ↔
      ∃ gap u, rest = gap ++ u ∧ (gap = [] ∨ gap = ['_']) ∧ IsGrouped r u n := by
  rw [marker?] at h
  by_cases hu : ∃ u, rest = '_' :: u
  · obtain ⟨u, rfl⟩ := hu
    have he : readMagnitude? t = readGrouped? r u := by simp only [readMagnitude?, h]
    rw [he, readGrouped?_eq_some_iff]
    constructor
    · exact fun hg => ⟨['_'], u, rfl, .inr rfl, hg⟩
    · rintro ⟨gap, u', he, rfl | rfl, hg⟩
      · obtain rfl : '_' :: u = u' := he
        exact absurd hg.wellGrouped (not_wellGrouped_underscore u)
      · cases he
        exact hg
  · have hn : ∀ u, rest = '_' :: u → False := fun u h => hu ⟨u, h⟩
    have he : readMagnitude? t = readGrouped? r rest := by simp only [readMagnitude?, h]
    rw [he, readGrouped?_eq_some_iff]
    constructor
    · exact fun hg => ⟨[], rest, rfl, .inl rfl, hg⟩
    · rintro ⟨gap, u, rfl, rfl | rfl, hg⟩
      · exact hg
      · exact absurd rfl (hn u)

theorem readMagnitude?_of_not_marker (h : marker? t = none) :
    readMagnitude? t = some n ↔
      IsGrouped .decimal t n ∧ (t.head?.bind decimalDigit? = some 0 → n = 0) := by
  rw [marker?] at h
  simp only [readMagnitude?, h, Option.filter_eq_some_iff, readGrouped?_eq_some_iff]
  simp [or_iff_not_imp_right]

theorem decimalDigit?_of_isDigit {k : Nat} (h : IsDigit .decimal c k) :
    decimalDigit? c = some k := by
  rcases h with ⟨h, -⟩ | ⟨-, ht, hd⟩
  · exact h
  · exact absurd hd (Nat.not_lt.mpr ht)

theorem IsNumeral.isDigit_of_mem (h : IsNumeral r t n) : ∀ c ∈ t, ∃ k, IsDigit r c k := by
  obtain ⟨ds, hds, -⟩ := h.value
  clear h
  induction hds with
  | nil => exact List.forall_mem_nil _
  | cons hd _ ih => exact List.forall_mem_cons.mpr ⟨⟨_, hd⟩, ih⟩

theorem IsGrouped.isDigit_of_mem (h : IsGrouped r t n) (hm : c ∈ t) (hc : c ≠ '_') :
    ∃ k, IsDigit r c k :=
  h.numeral.isDigit_of_mem c (List.mem_filter.mpr ⟨hm, by simpa using hc⟩)

theorem IsGrouped.exists_cons (h : IsGrouped r t n) : ∃ c rest, t = c :: rest ∧ c ≠ '_' := by
  cases t with
  | nil => exact absurd h.wellGrouped not_wellGrouped_nil
  | cons c rest =>
    exact ⟨c, rest, rfl, fun hc => not_wellGrouped_underscore rest (hc ▸ h.wellGrouped)⟩

/-- A magnitude begins with a decimal digit, so a sign is not part of it. -/
theorem IsMagnitude.exists_cons (h : IsMagnitude t n) :
    ∃ c rest k, t = c :: rest ∧ decimalDigit? c = some k := by
  cases h with
  | marked _ hz => exact ⟨_, _, 0, rfl, hz⟩
  | decimal h =>
    obtain ⟨c, rest, rfl, hc⟩ := h.exists_cons
    obtain ⟨k, hk⟩ := h.isDigit_of_mem List.mem_cons_self hc
    exact ⟨c, rest, k, rfl, decimalDigit?_of_isDigit hk⟩

/-- No decimal numeral begins with a marker. -/
theorem IsGrouped.marker?_eq_none (h : IsGrouped .decimal t n) : marker? t = none := by
  have hn : ∀ r : Radix, '_'.toLower ≠ r.letter ∧ decimalDigit? r.letter = none := by
    intro r
    cases r <;> decide
  cases hm : marker? t with
  | none => rfl
  | some s =>
    obtain ⟨z, m, rfl, -, -, hl⟩ := marker?_eq_some_iff.mp hm
    have hu : m ≠ '_' := fun hu => (hn s.1).1 (hu ▸ hl)
    obtain ⟨k, hk⟩ := h.isDigit_of_mem (List.mem_cons_of_mem z List.mem_cons_self) hu
    have hd := decimalDigit?_of_isDigit hk
    rw [← decimalDigit?_toLower, hl, (hn s.1).2] at hd
    cases hd

theorem readMagnitude?_eq_some_iff : readMagnitude? t = some n ↔ IsMagnitude t n := by
  cases hm : marker? t with
  | some s =>
    obtain ⟨r, rest⟩ := s
    rw [readMagnitude?_of_marker hm]
    constructor
    · rintro ⟨gap, u, rfl, hg, h⟩
      obtain ⟨z, m, rfl, hr, hz, hl⟩ := marker?_eq_some_iff.mp hm
      exact .marked hr hz hl hg h
    · intro h
      cases h with
      | marked hr hz hl hg h =>
        cases (marker?_eq_some_iff.mpr ⟨_, _, rfl, hr, hz, hl⟩).symm.trans hm
        exact ⟨_, _, rfl, hg, h⟩
      | decimal h =>
        cases h.marker?_eq_none.symm.trans hm
  | none =>
    rw [readMagnitude?_of_not_marker hm]
    constructor
    · exact fun h => .decimal h.1 h.2
    · intro h
      cases h with
      | marked hr hz hl hg h =>
        cases (marker?_eq_some_iff.mpr ⟨_, _, rfl, hr, hz, hl⟩).symm.trans hm
      | decimal h hz => exact ⟨h, hz⟩

theorem IsMagnitude.head?_ne_sign (h : IsMagnitude t n) :
    t.head? ≠ some '+' ∧ t.head? ≠ some '-' := by
  obtain ⟨c, rest, k, rfl, hc⟩ := h.exists_cons
  constructor <;> rintro ⟨⟩ <;> cases hc

theorem readAnyInteger?_eq_some_iff {k : Int} :
    readAnyInteger? t = some k ↔ IsInteger (trimMargin t) k := by
  have hr : readAnyInteger? t = some k ↔ ∃ n, IsMagnitude (splitSign (trimMargin t)).2 n ∧
      signed (splitSign (trimMargin t)).1 n = k := by
    simp only [← readMagnitude?_eq_some_iff, ← Option.map_eq_some_iff]
    rfl
  rw [hr]
  generalize trimMargin t = w
  fun_cases splitSign w with
  | case1 rest =>
    constructor
    · rintro ⟨n, h, rfl⟩
      exact .negative h
    · intro h
      cases h with
      | unsigned h => exact absurd rfl h.head?_ne_sign.2
      | negative h => exact ⟨_, h, rfl⟩
  | case2 rest =>
    constructor
    · rintro ⟨n, h, rfl⟩
      exact .positive h
    · intro h
      cases h with
      | unsigned h => exact absurd rfl h.head?_ne_sign.1
      | positive h => exact ⟨_, h, rfl⟩
  | case3 _ hm hp =>
    constructor
    · rintro ⟨n, h, rfl⟩
      exact .unsigned h
    · intro h
      cases h with
      | unsigned h => exact ⟨_, h, rfl⟩
      | positive h => exact absurd rfl (hp _)
      | negative h => exact absurd rfl (hm _)

/-- A text that is trimmed of its blanks has no margin either. -/
theorem trimMargin_trim (t : Text) : trimMargin t.trim = t.trim := by
  have hn : ∀ {c : Char}, isBlank c = false → isMargin c = false := fun h => by
    rw [isMargin, h, Bool.false_and]
  exact Text.dropWhile_ends_eq_self (fun c hc => hn (Text.not_blank_head_trim t c hc))
    fun c hc => hn (Text.not_blank_last_trim t c hc)

end ManchesterBaby
