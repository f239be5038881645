import ManchesterBaby.Proofs.Outcome
import ManchesterBaby.Source.Reading

/-! What reading can give: orders are not data, and one without an address has zero for its
operand. -/

namespace ManchesterBaby

def Entry.WellFormed : Entry → Prop
  | .data _ => True
  | .order kind operand =>
    kind ≠ .absoluteValue ∧ (kind.hasAddress = false → operand = .literal 0)

instance : (e : Entry) → Decidable e.WellFormed
  | .data _ => inferInstanceAs (Decidable True)
  | .order kind operand =>
    inferInstanceAs (Decidable
      (kind ≠ .absoluteValue ∧ (kind.hasAddress = false → operand = .literal 0)))

def Statement.WellFormed : Statement → Prop
  | .tag _ => True
  | .entry e => e.WellFormed

theorem mem_of_lookup_eq_some {α β : Type} [BEq α] [LawfulBEq α] {l : List (α × β)} {a : α} {b : β}
    (h : l.lookup a = some b) : (a, b) ∈ l := by
  obtain ⟨before, after, rfl, -⟩ := List.lookup_eq_some_iff.mp h
  simp

theorem wellFormed_of_hasAddress {kind : Kind} (h : kind.hasAddress = true) (operand : Value) :
    (Entry.order kind operand).WellFormed := by
  constructor
  · rintro rfl
    cases h
  · simp [h]

theorem readOrder_wellFormed {kind : Kind} {operand : Text} {e : Entry}
    (hk : kind.hasAddress = true) (h : readOrder kind operand = .ok e) : e.WellFormed := by
  obtain ⟨v, -, rfl⟩ := map_eq_ok_iff.mp h
  exact wellFormed_of_hasAddress hk v

namespace Dialect

theorem readModern_wellFormed {t : Text} {e : Entry} (h : readModern t = .ok e) : e.WellFormed := by
  have hb : ∀ b ∈ modernBare, b.2 ≠ .absoluteValue := by decide
  have ho : ∀ o ∈ modernOrders, o.2.hasAddress = true := by decide
  rw [readModern] at h
  split at h
  · next kind _ hl =>
    cases h
    exact ⟨hb _ (mem_of_lookup_eq_some hl), fun _ => rfl⟩
  · next kind _ hl =>
    split at h
    · cases h
    · exact readOrder_wellFormed (ho _ (mem_of_lookup_eq_some hl)) h
  · cases h

theorem readHistorical_wellFormed {t : Text} {e : Entry} (h : readHistorical t = .ok e) :
    e.WellFormed := by
  have hb : ∀ b ∈ historicalBare, b.2 ≠ .absoluteValue := by decide
  have ho : ∀ f ∈ historicalForms, f.kind.hasAddress = true := by
    simp [historicalForms, Kind.hasAddress]
  rw [readHistorical] at h
  split at h
  · next kind hl =>
    cases h
    exact ⟨hb _ (mem_of_lookup_eq_some hl), fun _ => rfl⟩
  · split at h
    · next kind operand hf =>
      obtain ⟨f, hm, hf⟩ := List.exists_of_findSome?_eq_some hf
      obtain ⟨_, _, he⟩ := Option.map_eq_some_iff.mp hf
      cases he
      exact readOrder_wellFormed (ho f hm) h
    · cases h

theorem readEntry_wellFormed {d : Dialect} {t : Text} {e : Entry} (h : d.readEntry t = .ok e) :
    e.WellFormed := by
  cases d with
  | modern => exact readModern_wellFormed h
  | historical => exact readHistorical_wellFormed h

end Dialect

theorem Statement.read_wellFormed {d : Dialect} {line : Text} {s : Statement}
    (h : Statement.read d line = .ok s) : s.WellFormed := by
  rw [Statement.read] at h
  split at h
  · rw [readTag] at h
    split at h <;> cases h
    trivial
  · obtain ⟨v, -, rfl⟩ := map_eq_ok_iff.mp h
    trivial
  · obtain ⟨e, he, rfl⟩ := map_eq_ok_iff.mp h
    exact Dialect.readEntry_wellFormed he

theorem Statement.isTagName_of_read {d : Dialect} {line name : Text}
    (h : Statement.read d line = .ok (.tag name)) : isTagName name = true := by
  rw [Statement.read] at h
  split at h
  · rw [readTag] at h
    split at h <;> cases h
    assumption
  · obtain ⟨v, -, hv⟩ := map_eq_ok_iff.mp h
    cases hv
  · obtain ⟨e, -, he⟩ := map_eq_ok_iff.mp h
    cases he

theorem readLine_item {d : Dialect} {location : Option Location} {line : Text} {l : Line}
    (h : readLine d location line = .ok l) : Statement.read d line = .ok l.item := by
  rw [readLine] at h
  split at h <;> cases h
  assumption

theorem readSource_wellFormed {d : Dialect} {file source : Text} {lines : List Line}
    (h : readSource d file source = .ok lines) : ∀ l ∈ lines, l.item.WellFormed := by
  intro l hl
  obtain ⟨x, -, hx⟩ := exists_of_mem_mapM h hl
  exact Statement.read_wellFormed (readLine_item hx)

theorem readSource_isTagName {d : Dialect} {file source name : Text} {lines : List Line}
    (h : readSource d file source = .ok lines) {l : Line} (hl : l ∈ lines)
    (hn : l.item = .tag name) : isTagName name = true := by
  obtain ⟨x, -, hx⟩ := exists_of_mem_mapM h hl
  exact Statement.isTagName_of_read (hn ▸ readLine_item hx)

end ManchesterBaby
