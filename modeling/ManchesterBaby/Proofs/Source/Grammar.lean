import ManchesterBaby.Proofs.Source.Code
import ManchesterBaby.Proofs.Source.Historical
import ManchesterBaby.Proofs.Source.Writing

/-! The grammar of a line, and what is read beyond it: after a mnemonic that takes no operand, the
rest of the line goes unread. -/

namespace ManchesterBaby

/-- The documented orders of a dialect. -/
inductive Entry.Spelled (d : Dialect) : Text → Entry → Prop
  | order {kind : Kind} {value : Text} {v : Value} (hk : kind.hasAddress = true)
      (hv : Value.read value = .ok v) : Spelled d (d.writeEntry kind value) (.order kind v)
  | bare {kind : Kind} (hk : kind.hasAddress = false) (ha : kind ≠ .absoluteValue) :
      Spelled d (d.writeEntry kind []) (.bare kind)

/-- An order that takes no operand, and more after a space. -/
inductive Entry.Overrun : Text → Entry → Prop
  | mk {kind : Kind} (hk : kind.hasAddress = false) (ha : kind ≠ .absoluteValue) (rest : Text) :
      Overrun (Dialect.modern.writeEntry kind [] ++ ' ' :: rest) (.bare kind)

namespace Statement

/-- The documented lines of a dialect, without comment and margins and in lower case. -/
inductive Spelled (d : Dialect) : Text → Statement → Prop
  | tag {gap name : Text} (hg : gap.all isBlank = true) (hne : name ≠ [])
      (hb : ∀ c ∈ name, isBlank c = false) : Spelled d (':' :: (gap ++ name)) (.tag name)
  | data {value : Text} {v : Value} (hv : Value.read value = .ok v) :
      Spelled d ("abs ".toList ++ value) (.entry (.data v))
  | entry {text : Text} {e : Entry} (h : Entry.Spelled d text e) : Spelled d text (.entry e)

inductive Overrun : Dialect → Text → Statement → Prop
  | mk {text : Text} {e : Entry} (h : Entry.Overrun text e) : Overrun .modern text (.entry e)

end Statement

namespace Dialect

variable {t text m rest : Text} {e : Entry} {kind : Kind}

def bareOrders : Dialect → List (Text × Kind)
  | modern => modernBare
  | historical => historicalBare

theorem mem_bareOrders_iff {d : Dialect} : (text, kind) ∈ d.bareOrders ↔
    kind.hasAddress = false ∧ kind ≠ .absoluteValue ∧ d.writeEntry kind [] = text := by
  constructor
  · have ht : ∀ b ∈ d.bareOrders, b.2.hasAddress = false ∧ b.2 ≠ .absoluteValue ∧
        d.writeEntry b.2 [] = b.1 := by cases d <;> decide
    exact ht (text, kind)
  · rintro ⟨hk, ha, rfl⟩
    cases kind with
    | skipNextIfNegative | stop => cases d <;> decide
    | absoluteValue => exact absurd rfl ha
    | jump | relativeJump | negate | store | subtract => cases hk

theorem mem_modernOrders (h : (m, kind) ∈ modernOrders) :
    kind.hasAddress = true ∧ ∀ value, modern.writeEntry kind value = m ++ ' ' :: value := by
  simp only [modernOrders, List.mem_cons, Prod.mk.injEq, List.not_mem_nil, or_false] at h
  rcases h with ⟨rfl, rfl⟩ | ⟨rfl, rfl⟩ | ⟨rfl, rfl⟩ | ⟨rfl, rfl⟩ | ⟨rfl, rfl⟩ <;>
    exact ⟨rfl, fun _ => rfl⟩

theorem mem_historicalForms {f : Form} (h : f ∈ historicalForms) : f.kind.hasAddress = true ∧
    ∀ value, historical.writeEntry f.kind value = f.opening ++ (value ++ f.closing) := by
  simp only [historicalForms, List.mem_cons, List.not_mem_nil, or_false] at h
  rcases h with rfl | rfl | rfl | rfl | rfl
  · exact ⟨rfl, fun _ => List.append_assoc ..⟩
  · exact ⟨rfl, fun _ => rfl⟩
  · exact ⟨rfl, fun _ => rfl⟩
  · exact ⟨rfl, fun value => congrArg _ (List.append_nil value).symm⟩
  · exact ⟨rfl, fun value => congrArg _ (List.append_nil value).symm⟩

theorem exists_mem_modernOrders (hk : kind.hasAddress = true) : ∃ m, (m, kind) ∈ modernOrders := by
  have hm : kind ∈ modernOrders.map Prod.snd := by
    revert hk
    cases kind <;> decide
  obtain ⟨⟨m, _⟩, h, rfl⟩ := List.mem_map.mp hm
  exact ⟨m, h⟩

theorem exists_mem_historicalForms (hk : kind.hasAddress = true) :
    ∃ f ∈ historicalForms, f.kind = kind := by
  have hm : kind ∈ historicalForms.map Form.kind := by
    revert hk
    cases kind <;> decide
  exact List.mem_map.mp hm

theorem exists_accepts_iff :
    (∃ r ∈ historicalPatterns, r.Accepts text e) ↔ Entry.Spelled historical text e := by
  constructor
  · rintro ⟨r, hr, h⟩
    cases h with
    | bare _ kind =>
      have hm : (text, kind) ∈ historical.bareOrders := by
        simpa [historicalPatterns, bareOrders] using hr
      obtain ⟨hk, ha, rfl⟩ := mem_bareOrders_iff.mp hm
      exact .bare hk ha
    | form f hb hv =>
      have hm : f ∈ historicalForms := by simpa [historicalPatterns] using hr
      obtain ⟨hk, hw⟩ := mem_historicalForms hm
      rw [← hw]
      exact .order hk hv
  · rintro (⟨hk, hv⟩ | ⟨hk, ha⟩)
    · obtain ⟨f, hf, rfl⟩ := exists_mem_historicalForms hk
      rw [(mem_historicalForms hf).2]
      exact ⟨_, form_mem_historicalPatterns hf, .form f (Value.not_all_isBlank_of_read hv) hv⟩
    · next kind =>
      have hm : (historical.writeEntry kind [], kind) ∈ historicalBare :=
        mem_bareOrders_iff.mpr ⟨hk, ha, rfl⟩
      have hr : .bare (historical.writeEntry kind []) kind ∈ historicalPatterns :=
        List.mem_append_left _ (List.mem_map_of_mem hm)
      exact ⟨_, hr, .bare _ kind⟩

/-- A text is its mnemonic, with nothing or a space and its operand after it. -/
theorem mnemonic_cases (text : Text) :
    (text = text.takeWhile (· != ' ') ∧ (text.dropWhile (· != ' ')).drop 1 = []) ∨
      text = text.takeWhile (· != ' ') ++ ' ' :: (text.dropWhile (· != ' ')).drop 1 := by
  have ht := List.takeWhile_append_dropWhile (p := (· != ' ')) (l := text)
  cases hd : text.dropWhile (· != ' ') with
  | nil =>
    rw [hd, List.append_nil] at ht
    exact .inl ⟨ht.symm, rfl⟩
  | cons c rest =>
    have hc := List.head?_dropWhile_not (· != ' ') text
    rw [hd] at hc ht
    obtain rfl : c = ' ' := by simpa using hc
    exact .inr ht.symm

theorem takeWhile_mnemonic (hm : ' ' ∉ m) (rest : Text) :
    (m ++ ' ' :: rest).takeWhile (· != ' ') = m ∧
      ((m ++ ' ' :: rest).dropWhile (· != ' ')).drop 1 = rest := by
  have hs : ∀ c ∈ m, (c != ' ') = true := by
    intro c hc
    rw [bne_iff_ne]
    rintro rfl
    exact hm hc
  constructor
  · simp [List.takeWhile_append_of_pos hs]
  · simp [List.dropWhile_append_of_pos hs]

theorem lookup_modernBare (h : (m, kind) ∈ modern.bareOrders) :
    ' ' ∉ m ∧ m.takeWhile (· != ' ') = m ∧ modernBare.lookup m = some kind := by
  have ht : ∀ b ∈ modernBare, ' ' ∉ b.1 ∧ b.1.takeWhile (· != ' ') = b.1 ∧
    modernBare.lookup b.1 = some b.2 := by decide
  exact ht (m, kind) h

theorem lookup_modernOrders (h : (m, kind) ∈ modernOrders) :
    ' ' ∉ m ∧ modernBare.lookup m = none ∧ modernOrders.lookup m = some kind := by
  have ht : ∀ o ∈ modernOrders, ' ' ∉ o.1 ∧ modernBare.lookup o.1 = none ∧
    modernOrders.lookup o.1 = some o.2 := by decide
  exact ht (m, kind) h

theorem readModern_eq_ok_iff : readModern t = .ok e ↔
    Entry.Spelled modern t.trim.lower e ∨ Entry.Overrun t.trim.lower e := by
  rw [readModern]
  generalize t.trim.lower = text
  constructor
  · intro h
    split at h
    · next kind hl =>
      cases h
      have hm : (text.takeWhile (· != ' '), kind) ∈ modern.bareOrders := mem_of_lookup_eq_some hl
      obtain ⟨hk, ha, hw⟩ := mem_bareOrders_iff.mp hm
      rcases mnemonic_cases text with ⟨ht, -⟩ | ht
      · rw [ht, ← hw]
        exact .inl (.bare hk ha)
      · rw [ht, ← hw]
        exact .inr (.mk hk ha _)
    · next kind _ hl =>
      split at h
      · cases h
      · next hb =>
        obtain ⟨hk, hw⟩ := mem_modernOrders (mem_of_lookup_eq_some hl)
        obtain ⟨v, hv, rfl⟩ := map_eq_ok_iff.mp h
        rcases mnemonic_cases text with ⟨-, ho⟩ | ht
        · rw [ho] at hb
          exact absurd rfl hb
        · rw [ht, ← hw]
          exact .inl (.order hk hv)
    · cases h
  · rintro ((⟨hk, hv⟩ | ⟨hk, ha⟩) | ⟨hk, ha, rest⟩)
    · obtain ⟨m, hm⟩ := exists_mem_modernOrders hk
      obtain ⟨hs, hn, hl⟩ := lookup_modernOrders hm
      simp only [(mem_modernOrders hm).2, takeWhile_mnemonic hs, hn, hl,
        Value.not_all_isBlank_of_read hv, readOrder, hv]
      rfl
    · obtain ⟨-, ht, hl⟩ := lookup_modernBare (mem_bareOrders_iff.mpr ⟨hk, ha, rfl⟩)
      simp only [ht, hl]
    · obtain ⟨hs, -, hl⟩ := lookup_modernBare (mem_bareOrders_iff.mpr ⟨hk, ha, rfl⟩)
      simp only [takeWhile_mnemonic hs, hl]

theorem readEntry_eq_ok_iff {d : Dialect} (ht : t.trim.lower = t) : d.readEntry t = .ok e ↔
    Entry.Spelled d t e ∨ d = .modern ∧ Entry.Overrun t e := by
  cases d with
  | modern =>
    rw [readEntry, readModern_eq_ok_iff, ht]
    simp
  | historical =>
    rw [readEntry, readHistorical_eq_ok_iff, exists_accepts_iff, ht]
    simp

end Dialect

/-- Neither a tag nor data. -/
structure IsOrderText (text : Text) : Prop where
  not_tag : ∀ name, text ≠ ':' :: name
  not_data : ∀ value, text ≠ 'a' :: 'b' :: 's' :: ' ' :: value

namespace Entry

variable {d : Dialect} {text : Text} {e e' : Entry} {kind : Kind}

theorem Spelled.isOrderText (h : Entry.Spelled d text e)
    (hh : ∀ c ∈ text.head?, isBlank c = false) : IsOrderText text := by
  cases h with
  | @bare kind hk ha =>
    cases kind with
    | skipNextIfNegative | stop => cases d <;> constructor <;> rintro _ ⟨⟩
    | absoluteValue => exact absurd rfl ha
    | jump | relativeJump | negate | store | subtract => cases hk
  | @order kind value v hk hv =>
    cases kind with
    | jump =>
      cases d with
      | modern => constructor <;> rintro _ ⟨⟩
      | historical =>
        -- the one order that starts with its value
        have hb := Value.not_all_isBlank_of_read hv
        have hs := Value.head_of_read hv
        cases value with
        | nil => cases hb
        | cons c value =>
          have hc : c = '$' ∨ c = '0' := hs c rfl (hh c rfl)
          rcases hc with rfl | rfl
          · constructor <;> rintro _ ⟨⟩
          · constructor <;> rintro _ ⟨⟩
    | relativeJump | negate | store | subtract => cases d <;> constructor <;> rintro _ ⟨⟩
    | skipNextIfNegative | stop | absoluteValue => cases hk

theorem Overrun.isOrderText (h : Entry.Overrun text e) : IsOrderText text := by
  cases h with
  | @mk kind hk ha rest =>
    cases kind with
    | skipNextIfNegative | stop => constructor <;> rintro _ ⟨⟩
    | absoluteValue => exact absurd rfl ha
    | jump | relativeJump | negate | store | subtract => cases hk

theorem Overrun.not_spelled (h : Entry.Overrun text e) : ¬Entry.Spelled .modern text e' := by
  obtain ⟨hk, ha, rest⟩ := h
  obtain ⟨hs, -, hl⟩ := Dialect.lookup_modernBare (Dialect.mem_bareOrders_iff.mpr ⟨hk, ha, rfl⟩)
  generalize ht : Dialect.modern.writeEntry _ [] ++ ' ' :: rest = w
  rintro (⟨hk', hv⟩ | ⟨hk', ha'⟩)
  · obtain ⟨m, hm⟩ := Dialect.exists_mem_modernOrders hk'
    obtain ⟨hs', hn, -⟩ := Dialect.lookup_modernOrders hm
    have hw := (Dialect.takeWhile_mnemonic hs rest).1
    rw [ht, (Dialect.mem_modernOrders hm).2, (Dialect.takeWhile_mnemonic hs' _).1] at hw
    rw [← hw, hn] at hl
    cases hl
  · have hs' := (Dialect.lookup_modernBare (Dialect.mem_bareOrders_iff.mpr ⟨hk', ha', rfl⟩)).1
    exact hs' (ht ▸ List.mem_append_right _ List.mem_cons_self)

end Entry

namespace Statement

variable {d : Dialect} {text name : Text} {s s' : Statement}

theorem readTag_eq_ok_iff (hl : ∀ c ∈ name.getLast?, isBlank c = false) :
    readTag name = .ok s ↔ ∃ gap n, gap.all isBlank = true ∧ n ≠ [] ∧
      (∀ c ∈ n, isBlank c = false) ∧ name = gap ++ n ∧ s = .tag n := by
  rw [readTag]
  constructor
  · intro h
    split at h
    · next hn =>
      cases h
      obtain ⟨hne, hb⟩ := Value.isTagName_iff.mp hn
      obtain ⟨gap, hg, he⟩ := Text.exists_gap hl
      exact ⟨gap, _, hg, hne, hb, he, rfl⟩
    · cases h
  · rintro ⟨gap, n, hg, hne, hb, rfl, rfl⟩
    have ht : (gap ++ n).trim = n := by
      rw [Text.trim, Text.trimStart_append_left hg]
      exact Text.trim_eq_self (fun c hc => hb c (List.mem_of_mem_head? hc))
        fun c hc => hb c (List.mem_of_mem_getLast? hc)
    rw [ht, if_pos (Value.isTagName_iff.mpr ⟨hne, hb⟩)]

/-- The code of a line as it comes to be read: without margins, and in lower case. -/
structure IsCode (text : Text) : Prop where
  trim_lower : text.trim.lower = text
  not_blank_head : ∀ c ∈ text.head?, isBlank c = false
  not_blank_last : ∀ c ∈ text.getLast?, isBlank c = false

theorem isCode_body (line : Text) : IsCode (body line).lower where
  trim_lower := by rw [body, Text.trim_lower_trim, Text.lower_lower]
  not_blank_head := Text.not_blank_head_lower (Text.not_blank_head_trim _)
  not_blank_last := Text.not_blank_last_lowerAfter (Text.not_blank_last_trim _)

theorem readCode_eq_ok_iff (hc : IsCode text) :
    d.readCode text = .ok s ↔ Spelled d text s ∨ Overrun d text s := by
  rw [Dialect.readCode.eq_def]
  split
  · next name =>
    have hl : ∀ c ∈ name.getLast?, isBlank c = false := by
      intro c h
      refine hc.not_blank_last c ?_
      rw [List.getLast?_cons, h]
      rfl
    rw [readTag_eq_ok_iff hl]
    constructor
    · rintro ⟨gap, n, hg, hne, hb, rfl, rfl⟩
      exact .inl (.tag hg hne hb)
    · rintro (h | h)
      · cases h with
        | tag hg hne hb => exact ⟨_, _, hg, hne, hb, rfl, rfl⟩
        | entry h => exact absurd rfl ((h.isOrderText hc.not_blank_head).not_tag _)
      · cases h with
        | mk h => exact absurd rfl (h.isOrderText.not_tag _)
  · next value =>
    rw [map_eq_ok_iff]
    constructor
    · rintro ⟨v, hv, rfl⟩
      exact .inl (.data hv)
    · rintro (h | h)
      · cases h with
        | data hv => exact ⟨_, hv, rfl⟩
        | entry h => exact absurd rfl ((h.isOrderText hc.not_blank_head).not_data _)
      · cases h with
        | mk h => exact absurd rfl (h.isOrderText.not_data _)
  · next ht hd =>
    rw [map_eq_ok_iff]
    simp only [Dialect.readEntry_eq_ok_iff hc.trim_lower]
    constructor
    · rintro ⟨e, h | ⟨rfl, h⟩, rfl⟩
      · exact .inl (.entry h)
      · exact .inr (.mk h)
    · rintro (h | h)
      · cases h with
        | tag => exact absurd rfl (ht _)
        | data => exact absurd rfl (hd _)
        | entry h => exact ⟨_, .inl h, rfl⟩
      · cases h with
        | mk h => exact ⟨_, .inr ⟨rfl, h⟩, rfl⟩

/-- The value of an entry is read from the line, unless the line has none. -/
theorem value_of_read {line : Text} {e : Entry} (h : Statement.read d line = .ok (.entry e)) :
    (∃ value, Value.read value = .ok e.value) ∨ e.value = .literal 0 := by
  rw [read_eq_readCode, readCode_eq_ok_iff (isCode_body line)] at h
  generalize (body line).lower = text at h
  rcases h with h | h
  · cases h with
    | data hv => exact .inl ⟨_, hv⟩
    | entry h =>
      cases h with
      | order _ hv => exact .inl ⟨_, hv⟩
      | bare => exact .inr rfl
  · cases h with
    | mk h =>
      cases h
      exact .inr rfl

theorem Overrun.not_spelled (h : Overrun d text s) : ¬Spelled d text s' := by
  cases h with
  | mk h =>
    intro hs
    cases hs with
    | tag => exact absurd rfl (h.isOrderText.not_tag _)
    | data => exact absurd rfl (h.isOrderText.not_data _)
    | entry hs => exact h.not_spelled hs

/-- A line is read by the documented grammar, and as it says, unless it goes on after a mnemonic
that takes no operand: then it is read as if it ended there. -/
theorem read_grammar (d : Dialect) (line : Text) :
    (∀ s, Statement.read d line = .ok s ↔
      Spelled d (body line).lower s ∨ Overrun d (body line).lower s) ∧
    ((∀ s, Statement.read d line = .ok s ↔ Spelled d (body line).lower s) ↔
      ¬∃ s, Overrun d (body line).lower s) := by
  have hr : ∀ s, Statement.read d line = .ok s ↔
      Spelled d (body line).lower s ∨ Overrun d (body line).lower s := fun s => by
    rw [read_eq_readCode, readCode_eq_ok_iff (isCode_body line)]
  refine ⟨hr, ?_⟩
  constructor
  · rintro h ⟨s, hs⟩
    exact hs.not_spelled ((h s).mp ((hr s).mpr (.inr hs)))
  · intro hn s
    rw [hr, or_iff_left]
    exact fun h => hn ⟨s, h⟩

/-- What follows the mnemonic is lost without a word. -/
theorem overrun_isRead :
    Statement.read .modern "cmp foo".toList = .ok (.entry (.bare .skipNextIfNegative)) ∧
      ¬∀ s, Statement.read .modern "cmp foo".toList = .ok s ↔
        Spelled .modern (body "cmp foo".toList).lower s := by
  have hr : Statement.read .modern "cmp foo".toList = .ok (.entry (.bare .skipNextIfNegative)) := by
    decide +kernel
  have hc : (body "cmp foo".toList).lower =
      Dialect.modern.writeEntry .skipNextIfNegative [] ++ ' ' :: "foo".toList := by decide +kernel
  have ho : Overrun .modern
      (Dialect.modern.writeEntry .skipNextIfNegative [] ++ ' ' :: "foo".toList)
      (.entry (.bare .skipNextIfNegative)) := .mk (.mk rfl (by decide) _)
  refine ⟨hr, fun h => ?_⟩
  have hs := (h _).mp hr
  rw [hc] at hs
  exact ho.not_spelled hs

end Statement

end ManchesterBaby
