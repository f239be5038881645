import ManchesterBaby.Proofs.Source.Value
import ManchesterBaby.Proofs.Source.WellFormed

/-! The historical notation is unambiguous. A text can have several of its forms, but of these no
more than one with a value for its operand, and no form that merely has the text stands before that
one. So it does no harm that the first form decides. -/

namespace ManchesterBaby

namespace Dialect

/-- What an order can look like: a fixed text, or a form with an operand. -/
inductive Pattern
  | bare (text : Text) (kind : Kind)
  | form (f : Form)

def historicalPatterns : List Pattern :=
  historicalBare.map (fun b => .bare b.1 b.2) ++ historicalForms.map .form

theorem Form.operand?_eq_some_iff {f : Form} {t operand : Text} :
    f.operand? t = some operand ↔
      t = f.opening ++ (operand ++ f.closing) ∧ operand.all isBlank = false := by
  simp only [operand?, Option.ite_none_right_eq_some, Bool.and_eq_true, List.isPrefixOf_iff_prefix,
    List.isSuffixOf_iff_suffix, Bool.not_eq_true', Option.some.injEq]
  constructor
  · rintro ⟨⟨⟨ho, hc⟩, hb⟩, rfl⟩
    refine ⟨?_, hb⟩
    obtain ⟨before, rfl⟩ := hc
    rw [List.length_append, Nat.add_sub_cancel, List.take_left] at hb ⊢
    have hl : f.opening.length ≤ before.length := by
      by_contra hl
      rw [List.drop_eq_nil_of_le (by omega)] at hb
      cases hb
    obtain ⟨operand, rfl⟩ := List.prefix_of_prefix_length_le ho (List.prefix_append _ _) hl
    rw [List.drop_left, List.append_assoc]
  · rintro ⟨rfl, hb⟩
    have ho : (f.opening ++ (operand ++ f.closing)).length - f.closing.length =
        (f.opening ++ operand).length := by
      simp only [List.length_append]
      omega
    rw [ho, ← List.append_assoc, List.take_left, List.drop_left, List.append_assoc]
    exact ⟨⟨⟨List.prefix_append _ _, _, List.append_assoc ..⟩, hb⟩, rfl⟩

namespace Pattern

def opening : Pattern → Text
  | bare text _ => text
  | form f => f.opening

def closing : Pattern → Text
  | bare text _ => text
  | form f => f.closing

/-- The text has the look of the pattern, whatever stands for the operand. -/
inductive Matches : Pattern → Text → Prop
  | bare (text : Text) (kind : Kind) : Matches (.bare text kind) text
  | form (f : Form) {operand : Text} (hb : operand.all isBlank = false) :
      Matches (.form f) (f.opening ++ (operand ++ f.closing))

/-- The text matches with a value for the operand, and stands for the entry. -/
inductive Accepts : Pattern → Text → Entry → Prop
  | bare (text : Text) (kind : Kind) : Accepts (.bare text kind) text (.bare kind)
  | form (f : Form) {operand : Text} {v : Value} (hb : operand.all isBlank = false)
      (hv : Value.read operand = .ok v) :
      Accepts (.form f) (f.opening ++ (operand ++ f.closing)) (.order f.kind v)

/-- The entry that a text stands for by this pattern alone. -/
def order? : Pattern → Text → Option Entry
  | bare text kind, t => if t = text then some (.bare kind) else none
  | form f, t => (f.operand? t).bind fun operand => (readOrder f.kind operand).toOption

/-- No text matches the first pattern and is accepted by the second: their openings or their
closings disagree, or where the second has none, what the first has there is no part of a value. -/
def clashes (s r : Pattern) : Bool :=
  (!s.opening.isPrefixOf r.opening && !r.opening.isPrefixOf s.opening) ||
    (!s.closing.isSuffixOf r.closing && !r.closing.isSuffixOf s.closing) ||
    (r.opening.isEmpty && s.opening.head?.any fun c => !isBlank c && c != '$' && c != '0') ||
    (r.closing.isEmpty && s.closing.any isBlank && s.closing.all fun c => c != '$' && c != '0')

variable {s r : Pattern} {t : Text} {e e' : Entry}

theorem Accepts.matches (h : r.Accepts t e) : r.Matches t := by
  cases h with
  | bare _ kind => exact .bare _ kind
  | form f hb => exact .form f hb

theorem Accepts.entry_unique (h : r.Accepts t e) (h' : r.Accepts t e') : e = e' := by
  cases h with
  | bare =>
    cases h'
    rfl
  | @form f operand v hb hv =>
    generalize ht : f.opening ++ (operand ++ f.closing) = w at h'
    cases h' with
    | @form _ operand' _ _ hv' =>
      have ho : operand = operand' := List.append_cancel_right (List.append_cancel_left ht)
      rw [ho, hv'] at hv
      cases hv
      rfl

theorem Matches.opening_prefix (h : s.Matches t) : s.opening <+: t := by
  cases h with
  | bare => exact List.prefix_refl _
  | form => exact List.prefix_append _ _

theorem Matches.closing_suffix (h : s.Matches t) : s.closing <:+ t := by
  cases h with
  | bare => exact List.suffix_refl _
  | form => exact ⟨_, List.append_assoc ..⟩

theorem order?_eq_some_iff : r.order? t = some e ↔ r.Accepts t e := by
  cases r with
  | bare text kind =>
    constructor
    · intro h
      obtain ⟨rfl, he⟩ := Option.ite_none_right_eq_some.mp h
      obtain rfl := Option.some.inj he
      exact .bare _ kind
    · rintro ⟨⟩
      exact if_pos rfl
  | form f =>
    simp only [order?, Option.bind_eq_some_iff, Form.operand?_eq_some_iff, readOrder,
      toOption_eq_some_iff, map_eq_ok_iff]
    constructor
    · rintro ⟨operand, ⟨rfl, hb⟩, v, hv, rfl⟩
      exact .form f hb hv
    · rintro ⟨⟩
      next operand v hb hv => exact ⟨operand, ⟨rfl, hb⟩, v, hv, rfl⟩

/-- Without an opening, the text starts with its operand. -/
theorem Accepts.head (h : r.Accepts t e) (ho : r.opening = []) :
    ∀ c ∈ t.head?, isBlank c = false → c = '$' ∨ c = '0' := by
  cases h with
  | bare =>
    obtain rfl : t = [] := ho
    simp
  | @form f operand v hb hv =>
    have hf : f.opening = [] := ho
    have hne : operand ≠ [] := by
      rintro rfl
      cases hb
    rw [hf, List.nil_append, List.head?_append_of_ne_nil _ hne]
    exact Value.head_of_read hv

/-- Without a closing, the text ends with its operand. -/
theorem Accepts.ending (h : r.Accepts t e) (hc : r.closing = []) (hne : t ≠ [])
    (ht : ∀ c ∈ t.getLast?, isBlank c = false) : ∃ value, value <:+ t ∧ ValueShaped value := by
  cases h with
  | bare text kind => exact absurd hc hne
  | @form f operand v hb hv =>
    have hf : f.closing = [] := hc
    have ho : operand ≠ [] := by
      rintro rfl
      cases hb
    rw [hf, List.append_nil, List.getLast?_append_of_ne_nil _ ho] at ht
    obtain ⟨gap, -, he⟩ := Text.exists_gap ht
    refine ⟨operand.trim, ⟨f.opening ++ gap, ?_⟩, Value.valueShaped_of_read hv⟩
    rw [hf, List.append_nil, List.append_assoc, ← he]

theorem not_matches_of_clashes (hc : s.clashes r = true) (h : r.Accepts t e)
    (ht : ∀ c ∈ t.getLast?, isBlank c = false) : ¬s.Matches t := by
  intro hs
  simp only [clashes, Bool.or_eq_true, Bool.and_eq_true, Bool.not_eq_true', ← Bool.not_eq_true,
    List.isPrefixOf_iff_prefix, List.isSuffixOf_iff_suffix, List.isEmpty_iff] at hc
  rcases hc with ((⟨ha, hb⟩ | ⟨ha, hb⟩) | ⟨ho, hn⟩) | ⟨⟨hc, hb⟩, hn⟩
  · exact (List.prefix_or_prefix_of_prefix hs.opening_prefix h.matches.opening_prefix).elim ha hb
  · exact (List.suffix_or_suffix_of_suffix hs.closing_suffix h.matches.closing_suffix).elim ha hb
  · obtain ⟨c, hc, hp⟩ := (Option.any_eq_true _ _).mp hn
    have hh : t.head? = some c := by
      obtain ⟨rest, rfl⟩ := hs.opening_prefix
      rw [List.head?_append, hc]
      rfl
    have hv := h.head ho c hh
    simp only [Bool.and_eq_true, Bool.not_eq_true', bne_iff_ne] at hp
    exact (hv hp.1.1).elim hp.1.2 hp.2
  · obtain ⟨b, hm, hb⟩ := List.any_eq_true.mp hb
    have hne : t ≠ [] := by
      rintro rfl
      rw [List.suffix_nil.mp hs.closing_suffix] at hm
      cases hm
    obtain ⟨value, hv, ⟨c, rest, rfl, hd⟩, hnb⟩ := h.ending hc hne ht
    rcases List.suffix_or_suffix_of_suffix hv hs.closing_suffix with hsub | hsub
    · have hp := List.all_eq_true.mp hn c (hsub.subset List.mem_cons_self)
      simp only [Bool.and_eq_true, bne_iff_ne] at hp
      exact hd.elim hp.1 hp.2
    · rw [hnb b (hsub.subset hm)] at hb
      cases hb

/-- No pattern that stands before the one that accepts a text matches it. -/
theorem pairwise_not_matches (ht : ∀ c ∈ t.getLast?, isBlank c = false) :
    historicalPatterns.Pairwise fun s r => (∃ e, r.Accepts t e) → ¬s.Matches t := by
  have hc : historicalPatterns.Pairwise fun s r => s.clashes r = true := by decide
  refine hc.imp fun h => ?_
  rintro ⟨e, hr⟩
  exact not_matches_of_clashes h hr ht

theorem eq_of_accepts (ht : ∀ c ∈ t.getLast?, isBlank c = false) (hs : s ∈ historicalPatterns)
    (hr : r ∈ historicalPatterns) (h : s.Accepts t e) (h' : r.Accepts t e') : s = r := by
  have hp : historicalPatterns.Pairwise fun s r =>
      ¬((∃ e, s.Accepts t e) ∧ ∃ e, r.Accepts t e) := by
    refine (pairwise_not_matches ht).imp fun hn => ?_
    rintro ⟨⟨_, hs⟩, hr⟩
    exact hn hr hs.matches
  have hu : ∀ s ∈ historicalPatterns, ∀ r ∈ historicalPatterns,
      (∃ e, s.Accepts t e) ∧ (∃ e, r.Accepts t e) → s = r :=
    List.Pairwise.forall_of_forall_of_flip (fun _ _ _ => rfl)
      (hp.imp fun hn h => absurd h hn) (hp.imp fun hn h => absurd h.symm hn)
  exact hu s hs r hr ⟨⟨e, h⟩, e', h'⟩

end Pattern

variable {t : Text} {e : Entry} {kind : Kind}

theorem lookup_historicalBare_eq_some_iff :
    historicalBare.lookup t = some kind ↔ .bare t kind ∈ historicalPatterns := by
  have hl : ∀ b ∈ historicalBare, historicalBare.lookup b.1 = some b.2 := by decide
  have hm : .bare t kind ∈ historicalPatterns ↔ (t, kind) ∈ historicalBare := by
    simp [historicalPatterns]
  rw [hm]
  exact ⟨mem_of_lookup_eq_some, hl (t, kind)⟩

theorem form_mem_historicalPatterns {f : Form} (hf : f ∈ historicalForms) :
    .form f ∈ historicalPatterns :=
  List.mem_append_right _ (List.mem_map_of_mem hf)

theorem findSome?_operand?_eq {f : Form} {operand : Text} {v : Value} (hf : f ∈ historicalForms)
    (ht : ∀ c ∈ t.getLast?, isBlank c = false) (ho : f.operand? t = some operand)
    (hv : Value.read operand = .ok v) :
    historicalForms.findSome? (fun f => (f.operand? t).map (f.kind, ·)) =
      some (f.kind, operand) := by
  obtain ⟨before, after, hl⟩ := List.append_of_mem hf
  have ha : (Pattern.form f).Accepts t (.order f.kind v) := by
    obtain ⟨rfl, hb⟩ := Form.operand?_eq_some_iff.mp ho
    exact .form f hb hv
  have hp := List.pairwise_map.mp (List.pairwise_append.mp (Pattern.pairwise_not_matches ht)).2.1
  rw [hl] at hp
  refine List.findSome?_eq_some_iff.mpr ⟨before, f, after, hl, by rw [ho]; rfl, ?_⟩
  intro g hg
  rw [Option.map_eq_none_iff, Option.eq_none_iff_forall_ne_some]
  intro other hg'
  obtain ⟨rfl, hb⟩ := Form.operand?_eq_some_iff.mp hg'
  exact (List.pairwise_append.mp hp).2.2 g hg f List.mem_cons_self ⟨_, ha⟩ (.form g hb)

theorem readHistorical_eq_ok_iff :
    readHistorical t = .ok e ↔ ∃ r ∈ historicalPatterns, r.Accepts t.trim.lower e := by
  have ht : ∀ c ∈ t.trim.lower.getLast?, isBlank c = false :=
    Text.not_blank_last_lowerAfter (Text.not_blank_last_trim t)
  rw [readHistorical]
  generalize t.trim.lower = text at ht
  constructor
  · intro h
    split at h
    · next kind hl =>
      cases h
      exact ⟨_, lookup_historicalBare_eq_some_iff.mp hl, .bare text kind⟩
    · split at h
      · next kind operand hs =>
        obtain ⟨f, hf, ho⟩ := List.exists_of_findSome?_eq_some hs
        obtain ⟨_, ho, he⟩ := Option.map_eq_some_iff.mp ho
        cases he
        obtain ⟨v, hv, rfl⟩ := map_eq_ok_iff.mp h
        obtain ⟨rfl, hb⟩ := Form.operand?_eq_some_iff.mp ho
        exact ⟨_, form_mem_historicalPatterns hf, .form f hb hv⟩
      · cases h
  · rintro ⟨r, hr, h⟩
    have hn : ∀ f, r = .form f → historicalBare.lookup text = none := by
      rintro f rfl
      rw [Option.eq_none_iff_forall_ne_some]
      intro kind hl
      have hb := lookup_historicalBare_eq_some_iff.mp hl
      cases Pattern.eq_of_accepts ht hb hr (.bare text kind) h
    cases h with
    | bare _ kind =>
      rw [lookup_historicalBare_eq_some_iff.mpr hr]
    | @form f operand v hb hv =>
      have hf : f ∈ historicalForms := by simpa [historicalPatterns] using hr
      have ho := (Form.operand?_eq_some_iff (f := f)).mpr ⟨rfl, hb⟩
      simp only [hn f rfl, findSome?_operand?_eq hf ht ho hv, readOrder, hv]
      rfl

/-- Of the patterns no more than one accepts a text. Reading finds it, though it goes by the first
that matches: none before it does. Trying the patterns until one accepts, in whatever order, comes
to the same. -/
theorem readHistorical_unambiguous (t : Text) :
    (∀ s ∈ historicalPatterns, ∀ r ∈ historicalPatterns, ∀ e e',
      s.Accepts t.trim.lower e → r.Accepts t.trim.lower e' → s = r ∧ e = e') ∧
    (∀ e, readHistorical t = .ok e ↔ ∃ r ∈ historicalPatterns, r.Accepts t.trim.lower e) ∧
    (historicalPatterns.Pairwise fun s r =>
      (∃ e, r.Accepts t.trim.lower e) → ¬s.Matches t.trim.lower) ∧
    ∀ order : List Pattern, order.Perm historicalPatterns →
      order.findSome? (·.order? t.trim.lower) = (readHistorical t).toOption := by
  have ht : ∀ c ∈ t.trim.lower.getLast?, isBlank c = false :=
    Text.not_blank_last_lowerAfter (Text.not_blank_last_trim t)
  have hu : ∀ s ∈ historicalPatterns, ∀ r ∈ historicalPatterns, ∀ e e',
      s.Accepts t.trim.lower e → r.Accepts t.trim.lower e' → s = r ∧ e = e' := by
    intro s hs r hr e e' h h'
    obtain rfl := Pattern.eq_of_accepts ht hs hr h h'
    exact ⟨rfl, h.entry_unique h'⟩
  refine ⟨hu, fun e => readHistorical_eq_ok_iff, Pattern.pairwise_not_matches ht, ?_⟩
  intro order hp
  ext e
  rw [toOption_eq_some_iff, readHistorical_eq_ok_iff]
  constructor
  · intro h
    obtain ⟨r, hr, he⟩ := List.exists_of_findSome?_eq_some h
    exact ⟨r, hp.mem_iff.mp hr, Pattern.order?_eq_some_iff.mp he⟩
  · rintro ⟨r, hr, h⟩
    cases hf : order.findSome? (·.order? t.trim.lower) with
    | none =>
      have hn := List.findSome?_eq_none_iff.mp hf r (hp.mem_iff.mpr hr)
      rw [Pattern.order?_eq_some_iff.mpr h] at hn
      cases hn
    | some e' =>
      obtain ⟨s, hs, he⟩ := List.exists_of_findSome?_eq_some hf
      have ha := Pattern.order?_eq_some_iff.mp he
      rw [(hu s (hp.mem_iff.mp hs) r hr e' e ha h).2]

/-- The relative jump has the look of a jump too. -/
theorem readHistorical_unambiguous_relativeJump :
    (Pattern.form ⟨[], ", cl".toList, .jump⟩).Matches "add $a, cl".toList ∧
      historicalPatterns.reverse.findSome? (·.order? "add $a, cl".toList) =
        some (.order .relativeJump (.reference ['a'])) := by
  have hr : readHistorical "add $a, cl".toList = .ok (.order .relativeJump (.reference ['a'])) := by
    decide +kernel
  have hl : (Text.trim "add $a, cl".toList).lower = "add $a, cl".toList := by decide +kernel
  have ho := (readHistorical_unambiguous "add $a, cl".toList).2.2.2 _ (List.reverse_perm _)
  rw [hl, hr] at ho
  have hm : (Pattern.form ⟨[], ", cl".toList, .jump⟩).Matches ([] ++ ("add $a".toList ++ _)) :=
    .form _ (by decide)
  exact ⟨hm, ho⟩

end Dialect

end ManchesterBaby
