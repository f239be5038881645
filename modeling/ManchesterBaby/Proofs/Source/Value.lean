import Mathlib.Data.Nat.Digits.Defs
import ManchesterBaby.Proofs.Numeral
import ManchesterBaby.Proofs.Outcome
import ManchesterBaby.Proofs.Text.Letters
import ManchesterBaby.Proofs.Text.Lowering
import ManchesterBaby.Source.Value

/-! Which texts are values. The documented ones are references and marked numerals; the reader also
takes a numeral whose marker stands there twice, and it takes nothing else. -/

namespace ManchesterBaby

/-- What a character counts for in a radix: a decimal digit of any script for its value, a letter in
either case for ten and on. -/
inductive IsDigit (r : Radix) (c : Char) : Nat → Prop
  | decimal {d : Nat} (h : decimalDigit? c = some d) (hd : d < r.base) : IsDigit r c d
  | letter {d : Nat} (h : c.toLower = Nat.digitChar d) (ht : 10 ≤ d) (hd : d < r.base) :
      IsDigit r c d

/-- A plain digit string, with its positional value. -/
structure IsNumeral (r : Radix) (digits : Text) (n : Nat) : Prop where
  nonempty : digits ≠ []
  within_limit : r = .decimal → digits.length ≤ decimalLimit
  value : ∃ ds, List.Forall₂ (IsDigit r) digits ds ∧ Nat.ofDigits r.base ds.reverse = n

/-- A numeral behind another marker of its radix, the zero of which may be of any script. -/
inductive IsRemarked (r : Radix) : Text → Nat → Prop
  | mk {z m : Char} {digits : Text} {n : Nat} (hr : r ≠ .decimal) (hz : decimalDigit? z = some 0)
      (hm : m.toLower = r.letter) (h : IsNumeral r digits n) : IsRemarked r (z :: m :: digits) n

def sign (negative : Bool) : Text := if negative then ['-'] else []

namespace Value

/-- The documented forms of a value. -/
inductive Spelled : Text → Value → Prop
  | reference {name : Text} (hne : name ≠ []) (hb : ∀ c ∈ name, isBlank c = false) :
      Spelled ('$' :: name) (.reference name)
  | literal {r : Radix} {m : Char} {digits : Text} {n : Nat} (negative : Bool)
      (hm : m.toLower = r.letter) (h : IsNumeral r digits n) :
      Spelled ('0' :: m :: (sign negative ++ digits)) (.literal (signed negative n))

/-- A numeral with a second marker behind its sign. -/
inductive Remarked : Text → Value → Prop
  | literal {r : Radix} {m : Char} {digits : Text} {n : Nat} (negative : Bool)
      (hm : m.toLower = r.letter) (h : IsRemarked r digits n) :
      Remarked ('0' :: m :: (sign negative ++ digits)) (.literal (signed negative n))

/-- What is wrong with a text that is no value. The form that it begins is named, and of a numeral
the digits are shown, if it has any. -/
def fault (t : Text) : Fault :=
  match t with
  | '$' :: _ => .invalidValue t (some "tag name".toList)
  | '0' :: m :: rest =>
    let digits := if rest.head? = some '-' then rest.tail else rest
    match Radix.ofLetter? m with
    | some r => .invalidValue (if digits.isEmpty then t else digits) (some r.name)
    | none => .invalidValue t none
  | _ => .invalidValue t none

/-- The text is read as documented: by its form if it has one, and else it is refused. -/
structure AsDocumented (t : Text) : Prop where
  accepted : ∀ v, Value.read t = .ok v ↔ Spelled t.trim v
  refused : (∃ v, Spelled t.trim v) ∨ Value.read t = .error (fault t.trim)

end Value

variable {r : Radix} {c : Char} {d n : Nat} {t digits : Text} {v : Value}

theorem decimalDigit?_toLower (c : Char) : decimalDigit? c.toLower = decimalDigit? c :=
  apply_toLower decimalDigit? (by decide) c

theorem letterDigit?_eq_some_iff (hd : d < 16) :
    letterDigit? c = some d ↔ c.toLower = Nat.digitChar d ∧ 10 ≤ d := by
  have hc : ∀ d < 16, 10 ≤ d →
      Char.ofNat (d + 87) = Nat.digitChar d ∧ (Nat.digitChar d).toNat = d + 87 := by decide
  have hl : letterDigit? c = if 97 ≤ c.toLower.toNat ∧ c.toLower.toNat ≤ 122 then
      some (c.toLower.toNat - 87) else none := by simp [letterDigit?]
  rw [hl]
  constructor
  · intro h
    split at h
    · next hb =>
      have he : c.toLower.toNat = d + 87 := by
        have hs := Option.some.inj h
        omega
      have ht : 10 ≤ d := by omega
      exact ⟨by rw [← (hc d hd ht).1, ← he, Char.ofNat_toNat], ht⟩
    · cases h
  · rintro ⟨h, ht⟩
    rw [h, (hc d hd ht).2, if_pos (by omega), Nat.add_sub_cancel]

theorem digit?_eq_some_iff : digit? r.base c = some d ↔ IsDigit r c d := by
  have hn : ∀ d < 16, 10 ≤ d → decimalDigit? (Nat.digitChar d) = none := by decide
  rw [digit?, Option.filter_eq_some_iff, Option.or_eq_some_iff, decide_eq_true_iff]
  constructor
  · rintro ⟨h | ⟨-, h⟩, hd⟩
    · exact .decimal h hd
    · obtain ⟨hc, ht⟩ := (letterDigit?_eq_some_iff (hd.trans_le r.base_le)).mp h
      exact .letter hc ht hd
  · rintro (⟨h, hd⟩ | ⟨h, ht, hd⟩)
    · exact ⟨.inl h, hd⟩
    · have hb : d < 16 := hd.trans_le r.base_le
      refine ⟨.inr ⟨?_, (letterDigit?_eq_some_iff hb).mpr ⟨h, ht⟩⟩, hd⟩
      rw [← decimalDigit?_toLower, h, hn d hb ht]

theorem ofDigits_eq (base : Nat) (ds : List Nat) :
    ofDigits base ds = Nat.ofDigits base ds.reverse := by
  rw [Nat.ofDigits_eq_foldr, List.foldr_reverse, ofDigits]
  congr 1
  funext n d
  rw [Nat.cast_id, Nat.add_comm, Nat.mul_comm]

theorem plainDigits_eq_some_iff :
    (digits.mapM (digit? r.base) >>= number? r) = some n ↔ IsNumeral r digits n := by
  have hn : ∀ ds : List Nat, ds.length = digits.length →
      (number? r ds = some n ↔ digits ≠ [] ∧ (r = .decimal → digits.length ≤ decimalLimit) ∧
        Nat.ofDigits r.base ds.reverse = n) := by
    intro ds hl
    have he : ds = [] ↔ digits = [] := by
      rw [← List.length_eq_zero_iff, hl, List.length_eq_zero_iff]
    by_cases hr : r = .decimal
    · simp [number?, withinLimit, he, hl, hr, ofDigits_eq, and_assoc]
    · simp [number?, withinLimit, he, hr, ofDigits_eq]
  simp only [Option.bind_eq_bind, Option.bind_eq_some_iff, mapM_eq_some_iff, digit?_eq_some_iff]
  constructor
  · rintro ⟨ds, hds, h⟩
    obtain ⟨hne, hw, hv⟩ := (hn ds hds.length_eq.symm).mp h
    exact ⟨hne, hw, ds, hds, hv⟩
  · rintro ⟨hne, hw, ds, hds, hv⟩
    exact ⟨ds, hds, (hn ds hds.length_eq.symm).mpr ⟨hne, hw, hv⟩⟩

theorem isNumeral_toDigits {n : Nat} (h : r = .decimal → fitsDecimal n = true) :
    IsNumeral r (Nat.toDigits r.base n) n := by
  obtain ⟨ds, hne, hds, hn, ht⟩ := exists_digits r n
  refine ⟨by simp [ht, hne], ?_, ds, ?_, ?_⟩
  · rintro rfl
    exact fitsDecimal_iff.mp (h rfl)
  · rw [ht, List.forall₂_map_left_iff, List.forall₂_same]
    exact fun d hd => digit?_eq_some_iff.mp (r.digit?_digitChar d (hds d hd))
  · rw [← ofDigits_eq, hn]

theorem not_isDigit_marker (hr : r ≠ .decimal) (hc : c.toLower = r.letter) : ¬IsDigit r c d := by
  have hn : decimalDigit? r.letter = none ∧ ∀ d < r.base, Nat.digitChar d ≠ r.letter := by
    cases r with
    | decimal => exact absurd rfl hr
    | hex | octal | binary => decide
  rintro (⟨h, -⟩ | ⟨h, -, hd⟩)
  · rw [← decimalDigit?_toLower, hc, hn.1] at h
    cases h
  · exact hn.2 d hd (h.symm.trans hc)

theorem not_isDigit_minus : ¬IsDigit r '-' d := by
  have hn : ∀ d < 16, Nat.digitChar d ≠ Char.toLower '-' := by decide
  rintro (⟨h, -⟩ | ⟨h, -, hd⟩)
  · cases h
  · exact hn d (hd.trans_le r.base_le) h.symm

theorem not_blank_of_decimalDigit? (h : decimalDigit? c = some d) : isBlank c = false := by
  have hb : ∀ z ∈ digitZeros, ∀ k < 10, isBlank (Char.ofNat (z + k)) = false := by decide +kernel
  obtain ⟨z, hz, -⟩ := Option.map_eq_some_iff.mp h
  have hc := List.find?_some hz
  rw [Bool.and_eq_true, decide_eq_true_iff, decide_eq_true_iff] at hc
  obtain ⟨k, hk⟩ := Nat.exists_eq_add_of_le hc.1
  rw [← Char.ofNat_toNat c, hk]
  exact hb z (List.mem_of_find?_eq_some hz) k (by omega)

theorem not_blank_of_isDigit (h : IsDigit r c d) : isBlank c = false := by
  have hb : ∀ d < 16, isBlank (Nat.digitChar d) = false := by decide
  cases h with
  | decimal h => exact not_blank_of_decimalDigit? h
  | letter h _ hd => rw [← isBlank_toLower, h, hb d (hd.trans_le r.base_le)]

theorem not_blank_of_marker (h : c.toLower = r.letter) : isBlank c = false := by
  rw [← isBlank_toLower, h]
  cases r <;> rfl

theorem not_isNumeral_minus : ¬IsNumeral r ('-' :: t) n := by
  rintro ⟨-, -, ds, hds, -⟩
  obtain ⟨d, -, hd, -, -⟩ := List.forall₂_cons_left_iff.mp hds
  exact not_isDigit_minus hd

theorem not_isRemarked_minus : ¬IsRemarked r ('-' :: t) n := by
  rintro ⟨-, hz, -, -⟩
  cases hz

theorem not_isNumeral_marker {z m : Char} (hr : r ≠ .decimal) (hm : m.toLower = r.letter) :
    ¬IsNumeral r (z :: m :: t) n := by
  rintro ⟨-, -, ds, hds, -⟩
  obtain ⟨-, es, -, hes, -⟩ := List.forall₂_cons_left_iff.mp hds
  obtain ⟨d, -, hd, -, -⟩ := List.forall₂_cons_left_iff.mp hes
  exact not_isDigit_marker hr hm hd

theorem afterMarker?_eq_some_iff {rest : Text} :
    afterMarker? r t = some rest ↔ ∃ z m, t = z :: m :: rest ∧ r ≠ .decimal ∧
      decimalDigit? z = some 0 ∧ m.toLower = r.letter := by
  match t with
  | [] => simp [afterMarker?]
  | [_] => simp [afterMarker?]
  | z :: m :: digits =>
    simp only [afterMarker?, Option.ite_none_right_eq_some, Bool.and_eq_true, bne_iff_ne,
      beq_iff_eq, Option.some.injEq, List.cons.injEq]
    constructor
    · rintro ⟨⟨⟨hr, hz⟩, hm⟩, rfl⟩
      exact ⟨z, m, ⟨rfl, rfl, rfl⟩, hr, hz, hm⟩
    · rintro ⟨z, m, ⟨rfl, rfl, rfl⟩, hr, hz, hm⟩
      exact ⟨⟨⟨hr, hz⟩, hm⟩, rfl⟩

/-- Digits, or digits behind a marker. No text is both. -/
theorem readDigits?_eq_some_iff :
    readDigits? r t = some n ↔ IsNumeral r t n ∨ IsRemarked r t n := by
  rw [readDigits?, plainDigits_eq_some_iff]
  cases h : afterMarker? r t with
  | none =>
    rw [Option.getD_none, iff_self_or]
    rintro ⟨hr, hz, hm, -⟩
    rw [afterMarker?_eq_some_iff.mpr ⟨_, _, rfl, hr, hz, hm⟩] at h
    cases h
  | some digits =>
    obtain ⟨z, m, rfl, hr, hz, hm⟩ := afterMarker?_eq_some_iff.mp h
    rw [Option.getD_some]
    constructor
    · exact fun hn => .inr (.mk hr hz hm hn)
    · rintro (hn | ⟨-, -, -, hn⟩)
      · exact absurd hn (not_isNumeral_marker hr hm)
      · exact hn

theorem Radix.ofLetter?_eq_some_iff : Radix.ofLetter? c = some r ↔ c.toLower = r.letter := by
  constructor
  · intro h
    have hl := List.find?_some h
    exact (beq_iff_eq.mp hl).symm
  · intro h
    rw [Radix.ofLetter?, h]
    cases r <;> rfl

theorem IsNumeral.not_blank (h : IsNumeral r digits n) : ∀ c ∈ digits, isBlank c = false := by
  obtain ⟨ds, hds, -⟩ := h.value
  clear h
  induction hds with
  | nil => simp
  | cons hd _ ih => exact List.forall_mem_cons.mpr ⟨not_blank_of_isDigit hd, ih⟩

theorem IsRemarked.not_blank (h : IsRemarked r digits n) : ∀ c ∈ digits, isBlank c = false := by
  obtain ⟨-, hz, hm, hn⟩ := h
  refine List.forall_mem_cons.mpr ⟨not_blank_of_decimalDigit? hz, ?_⟩
  exact List.forall_mem_cons.mpr ⟨not_blank_of_marker hm, hn.not_blank⟩

theorem not_blank_of_mem_sign (negative : Bool) : ∀ c ∈ sign negative, isBlank c = false := by
  cases negative with
  | false => exact List.forall_mem_nil _
  | true => exact List.forall_mem_singleton.mpr (by decide)

/-- Begins as a value does, and has no blank. -/
structure ValueShaped (t : Text) : Prop where
  head : ∃ c rest, t = c :: rest ∧ (c = '$' ∨ c = '0')
  not_blank : ∀ c ∈ t, isBlank c = false

namespace Value

theorem exists_sign (t : Text) : ∃ negative digits, t = sign negative ++ digits ∧
    (negative = false → digits.head? ≠ some '-') := by
  by_cases h : t.head? = some '-'
  · obtain ⟨digits, rfl⟩ := List.head?_eq_some_iff.mp h
    exact ⟨true, digits, rfl, by simp⟩
  · exact ⟨false, t, rfl, fun _ => h⟩

theorem readLiteral_sign {whole : Text} {negative : Bool}
    (h : negative = false → digits.head? ≠ some '-') :
    readLiteral r whole (sign negative ++ digits) =
      match readDigits? r digits with
      | some n => .ok (.literal (signed negative n))
      | none =>
        .error (.invalidValue (if digits.isEmpty then whole else digits) (some r.name)) := by
  cases negative with
  | true => rfl
  | false =>
    have hs : sign false ++ digits = digits := rfl
    have hd : ∀ rest, digits = '-' :: rest → False := by
      rintro rest rfl
      exact h rfl rfl
    rw [hs]
    cases hn : readDigits? r digits with
    | none => simp only [readLiteral, hn]
    | some n => simp only [readLiteral, hn]

theorem head?_ne_minus (h : IsNumeral r digits n ∨ IsRemarked r digits n) :
    digits.head? ≠ some '-' := by
  intro hd
  obtain ⟨rest, rfl⟩ := List.head?_eq_some_iff.mp hd
  exact h.elim not_isNumeral_minus not_isRemarked_minus

theorem sign_append_inj {a b : Bool} {s t : Text} (hs : s.head? ≠ some '-')
    (ht : t.head? ≠ some '-') (h : sign a ++ s = sign b ++ t) : s = t := by
  cases a <;> cases b
  · exact h
  · exact absurd (congrArg List.head? h) hs
  · exact absurd (congrArg List.head? h).symm ht
  · exact (List.cons.inj h).2

theorem letter_inj {r' : Radix} (h : c.toLower = r.letter) (h' : c.toLower = r'.letter) :
    r = r' :=
  Option.some.inj
    ((Radix.ofLetter?_eq_some_iff.mpr h).symm.trans (Radix.ofLetter?_eq_some_iff.mpr h'))

theorem isTagName_iff {name : Text} :
    isTagName name = true ↔ name ≠ [] ∧ ∀ c ∈ name, isBlank c = false := by
  simp [isTagName]

theorem readReference_eq_ok_iff {whole name : Text} :
    readReference whole name = .ok v ↔ Spelled ('$' :: name) v := by
  rw [readReference]
  constructor
  · intro h
    split at h
    · next hn =>
      cases h
      exact .reference (isTagName_iff.mp hn).1 (isTagName_iff.mp hn).2
    · cases h
  · rintro ⟨hne, hb⟩
    rw [if_pos (isTagName_iff.mpr ⟨hne, hb⟩)]

theorem readLiteral_eq_ok_iff {whole rest : Text} (hc : c.toLower = r.letter) :
    readLiteral r whole rest = .ok v ↔
      Spelled ('0' :: c :: rest) v ∨ Remarked ('0' :: c :: rest) v := by
  have hr : ∀ {negative digits n}, IsNumeral r digits n ∨ IsRemarked r digits n →
      readLiteral r whole (sign negative ++ digits) = .ok (.literal (signed negative n)) := by
    intro negative digits n hn
    rw [readLiteral_sign fun _ => head?_ne_minus hn, readDigits?_eq_some_iff.mpr hn]
  constructor
  · intro h
    obtain ⟨negative, digits, rfl, hd⟩ := exists_sign rest
    rw [readLiteral_sign hd] at h
    split at h
    · next n hn =>
      cases h
      rcases readDigits?_eq_some_iff.mp hn with hn | hn
      · exact .inl (.literal negative hc hn)
      · exact .inr (.literal negative hc hn)
    · cases h
  · rintro (h | h)
    · cases h with
      | literal negative hm hn =>
        obtain rfl := letter_inj hc hm
        exact hr (.inl hn)
    · cases h with
      | literal negative hm hn =>
        obtain rfl := letter_inj hc hm
        exact hr (.inr hn)

/-- What is read is a documented form or a numeral with two markers. -/
theorem read_eq_ok_iff : Value.read t = .ok v ↔ Spelled t.trim v ∨ Remarked t.trim v := by
  rw [Value.read]
  generalize t.trim = w
  split
  · next name =>
    rw [readReference_eq_ok_iff, iff_self_or]
    rintro ⟨⟩
  · next m rest =>
    split
    · next r hm => exact readLiteral_eq_ok_iff (Radix.ofLetter?_eq_some_iff.mp hm)
    · next hm =>
      have hn : ∀ r : Radix, m.toLower ≠ r.letter := fun r h => by
        rw [Radix.ofLetter?_eq_some_iff.mpr h] at hm
        cases hm
      constructor
      · rintro ⟨⟩
      · rintro (h | h)
        · cases h with
          | literal _ hc => exact absurd hc (hn _)
        · cases h with
          | literal _ hc => exact absurd hc (hn _)
  · next hr hl =>
    constructor
    · rintro ⟨⟩
    · rintro (h | h)
      · cases h with
        | reference => exact absurd rfl (hr _)
        | literal => exact absurd rfl (hl _ _)
      · cases h with
        | literal => exact absurd rfl (hl _ _)

theorem fault_literal {negative : Bool} (hc : c.toLower = r.letter)
    (h : negative = false → digits.head? ≠ some '-') :
    fault ('0' :: c :: (sign negative ++ digits)) = .invalidValue
      (if digits.isEmpty then '0' :: c :: (sign negative ++ digits) else digits)
      (some r.name) := by
  have hd : (if (sign negative ++ digits).head? = some '-' then (sign negative ++ digits).tail
      else sign negative ++ digits) = digits := by
    cases negative with
    | true => rfl
    | false => exact if_neg (h rfl)
  rw [fault]
  simp only [hd, Radix.ofLetter?_eq_some_iff.mpr hc]

theorem read_eq_fault {f : Fault} (h : Value.read t = .error f) : f = fault t.trim := by
  rw [Value.read] at h
  generalize t.trim = w at h ⊢
  split at h
  · next name =>
    rw [readReference] at h
    split at h <;> cases h
    rfl
  · next m rest =>
    split at h
    · next r hm =>
      obtain ⟨negative, digits, rfl, hd⟩ := exists_sign rest
      rw [readLiteral_sign hd] at h
      split at h <;> cases h
      exact (fault_literal (Radix.ofLetter?_eq_some_iff.mp hm) hd).symm
    · next hm =>
      cases h
      simp only [fault, hm]
  · next hr hl =>
    cases h
    rw [fault]
    · exact hr
    · exact hl

theorem not_remarked_of_spelled {v' : Value} (h : Spelled t v) : ¬Remarked t v' := by
  rintro ⟨negative, hm, hr⟩
  generalize he : '0' :: _ :: (sign negative ++ _) = w at h
  cases h with
  | reference => cases he
  | literal _ hc hn =>
    obtain ⟨rfl, hs⟩ := List.cons.inj (List.cons.inj he).2
    obtain rfl := letter_inj hm hc
    obtain rfl := sign_append_inj (head?_ne_minus (.inr hr)) (head?_ne_minus (.inl hn)) hs
    obtain ⟨hr, -, hm, -⟩ := hr
    exact not_isNumeral_marker hr hm hn

theorem valueShaped_literal {m : Char} (negative : Bool) (hm : m.toLower = r.letter)
    (h : ∀ c ∈ digits, isBlank c = false) :
    ValueShaped ('0' :: m :: (sign negative ++ digits)) := by
  have hd := List.forall_mem_append.mpr ⟨not_blank_of_mem_sign negative, h⟩
  refine ⟨⟨'0', _, rfl, .inr rfl⟩, List.forall_mem_cons.mpr ⟨by decide, ?_⟩⟩
  exact List.forall_mem_cons.mpr ⟨not_blank_of_marker hm, hd⟩

theorem Spelled.valueShaped (h : Spelled t v) : ValueShaped t := by
  cases h with
  | reference _ hb => exact ⟨⟨_, _, rfl, .inl rfl⟩, List.forall_mem_cons.mpr ⟨by decide, hb⟩⟩
  | literal negative hm hn => exact valueShaped_literal negative hm hn.not_blank

theorem Remarked.valueShaped (h : Remarked t v) : ValueShaped t := by
  cases h with
  | literal negative hm hn => exact valueShaped_literal negative hm hn.not_blank

theorem valueShaped_of_read (h : Value.read t = .ok v) : ValueShaped t.trim :=
  (read_eq_ok_iff.mp h).elim Spelled.valueShaped Remarked.valueShaped

theorem not_all_isBlank_of_read (h : Value.read t = .ok v) : t.all isBlank = false := by
  obtain ⟨c, rest, hc, -⟩ := (valueShaped_of_read h).head
  rw [Bool.eq_false_iff, ne_eq, ← Text.trim_eq_nil_iff, hc]
  exact List.cons_ne_nil c rest

theorem head_of_read (h : Value.read t = .ok v) :
    ∀ c ∈ t.head?, isBlank c = false → c = '$' ∨ c = '0' := by
  obtain ⟨left, right, hl, -, he⟩ := t.exists_margins
  obtain ⟨c, rest, hc, hs⟩ := (valueShaped_of_read h).head
  rw [he, hc]
  cases left with
  | nil =>
    rintro _ ⟨⟩ -
    exact hs
  | cons b left =>
    rintro _ ⟨⟩ hn
    rw [List.all_cons, hn] at hl
    cases hl

/-- Reading follows the documented grammar but for the numerals with two markers, which have a value
too. -/
theorem read_outcome (t : Text) :
    (∀ v, Value.read t = .ok v ↔ Spelled t.trim v ∨ Remarked t.trim v) ∧
      ((∃ v, Value.read t = .ok v) ∨ Value.read t = .error (fault t.trim)) ∧
      (AsDocumented t ↔ ¬∃ v, Remarked t.trim v) := by
  have hr : (∃ v, Value.read t = .ok v) ∨ Value.read t = .error (fault t.trim) := by
    cases h : Value.read t with
    | ok v => exact .inl ⟨v, rfl⟩
    | error f => exact .inr (congrArg _ (read_eq_fault h))
  refine ⟨fun v => read_eq_ok_iff, hr, ?_⟩
  constructor
  · rintro ⟨ha, -⟩ ⟨v, hv⟩
    exact not_remarked_of_spelled ((ha v).mp (read_eq_ok_iff.mpr (.inr hv))) hv
  · intro hn
    have ha : ∀ v, Value.read t = .ok v ↔ Spelled t.trim v := fun v => by
      rw [read_eq_ok_iff, or_iff_left]
      exact fun h => hn ⟨v, h⟩
    exact ⟨ha, hr.imp (Exists.imp fun v => (ha v).mp) id⟩

/-- A second marker is passed over, where it should make the digits no numeral. -/
theorem secondMarker_isRead :
    Value.read "0x0x10".toList = .ok (.literal 16) ∧ ¬AsDocumented "0x0x10".toList := by
  have hr : Value.read "0x0x10".toList = .ok (.literal 16) := by decide +kernel
  have hn : IsNumeral .hex ['1', '0'] 16 :=
    plainDigits_eq_some_iff.mp (by decide +kernel)
  have hm : Remarked ('0' :: 'x' :: (sign false ++ ['0', 'x', '1', '0'])) (.literal 16) :=
    .literal (r := .hex) false rfl (.mk (by decide) rfl rfl hn)
  have ht : Text.trim "0x0x10".toList = '0' :: 'x' :: (sign false ++ ['0', 'x', '1', '0']) := by
    decide
  exact ⟨hr, fun h => not_remarked_of_spelled ((h.accepted _).mp hr) (ht ▸ hm)⟩

end Value

end ManchesterBaby
