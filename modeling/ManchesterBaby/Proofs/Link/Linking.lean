import ManchesterBaby.Proofs.Link.Resolution

/-! What comes of linking, said on the lines alone: when it is accepted, what the program then
holds, and which diagnostic there is otherwise. The size is checked before any reference. -/

namespace ManchesterBaby

variable {lines : List Line} {f : WordFormat} {checkSize : Bool}

def Value.IsBound (lines : List Line) : Value → Prop
  | .literal _ => True
  | .reference tag => ∃ p, BoundAt lines tag p

def Value.number? (symbols : SymbolTable) : Value → Option Int
  | .literal n => some n
  | .reference tag => symbols.lookup tag

structure Program.LinkedFrom (f : WordFormat) (lines : List Line) (p : Program) : Prop where
  format_eq : p.format = f
  nodup_names : p.symbols.names.Nodup
  mem_names_iff : ∀ tag, tag ∈ p.symbols.names ↔ ∃ q, BoundAt lines tag q
  lastBoundAt : ∀ tag n, p.symbols.lookup tag = some n → ∃ q : Nat, n = q ∧ LastBoundAt lines tag q
  position_lt : ∀ tag n, p.symbols.lookup tag = some n → n < (entriesOf lines).length
  eq_of_position : ∀ tag other n,
    p.symbols.lookup tag = some n → p.symbols.lookup other = some n → tag = other
  instructions : List.Forall₂
    (fun e i => ∃ n, e.item.value.number? p.symbols = some n ∧ i = .ofOperand e.item.kind n)
    (entriesOf lines) p.instructions

/-- The diagnostic is of the first entry that refers to a tag that is bound nowhere. -/
def FirstUnbound (lines : List Line) (d : Diagnostic) : Prop :=
  ∃ before e after tag, entriesOf lines = before ++ e :: after ∧
    (∀ x ∈ before, x.item.value.IsBound lines) ∧
    e.item.value = .reference tag ∧ (∀ p, ¬BoundAt lines tag p) ∧
    d = ⟨.unknownTag tag (Similarity.closest tag (symbolTable (taggedEntries lines)).names),
      e.location, e.source⟩

theorem Value.exists_denotes_iff {v : Value} : (∃ n, v.Denotes lines n) ↔ v.IsBound lines := by
  cases v with
  | literal n => exact ⟨fun _ => trivial, fun _ => ⟨n, .literal n⟩⟩
  | reference tag =>
    constructor
    · rintro ⟨_, ⟨⟩⟩
      next q hq => exact ⟨q, hq.boundAt⟩
    · rintro ⟨q, hq⟩
      cases hl : (symbolTable (taggedEntries lines)).lookup tag with
      | none => exact absurd hq (lookup_symbolTable_eq_none_iff.mp hl q)
      | some n =>
        obtain ⟨r, rfl, hr⟩ := (lookup_symbolTable_iff lines tag n).mp hl
        exact ⟨r, .reference hr⟩

theorem Value.number?_eq_some_iff {v : Value} {n : Int} :
    v.number? (symbolTable (taggedEntries lines)) = some n ↔ v.Denotes lines n := by
  rw [← Value.resolve_eq_ok_iff]
  cases v with
  | literal k => simp [number?, resolve]
  | reference tag =>
    simp only [number?, resolve]
    cases (symbolTable (taggedEntries lines)).lookup tag <;> simp

theorem Value.resolve_eq_error_iff {v : Value} {fault : Fault} :
    v.resolve (symbolTable (taggedEntries lines)) = .error fault ↔
      ∃ tag, v = .reference tag ∧ (∀ p, ¬BoundAt lines tag p) ∧ fault =
        .unknownTag tag (Similarity.closest tag (symbolTable (taggedEntries lines)).names) := by
  cases v with
  | literal n => simp [resolve]
  | reference tag =>
    have hn : (symbolTable (taggedEntries lines)).lookup tag = none ↔ ∀ p, ¬BoundAt lines tag p :=
      lookup_symbolTable_eq_none_iff
    simp only [resolve, reference.injEq, exists_eq_left', ← hn]
    cases (symbolTable (taggedEntries lines)).lookup tag <;> simp [eq_comm]

theorem resolveEntry_eq_error_iff {symbols : SymbolTable} {e : Placed Entry} {d : Diagnostic} :
    resolveEntry symbols e = .error d ↔
      ∃ fault, e.item.value.resolve symbols = .error fault ∧ d = ⟨fault, e.location, e.source⟩ := by
  rw [resolveEntry, Entry.resolve]
  cases e.item.value.resolve symbols <;> simp [Except.map, eq_comm]

theorem exists_resolveEntry_iff {e : Placed Entry} :
    (∃ i, resolveEntry (symbolTable (taggedEntries lines)) e = .ok i) ↔
      e.item.value.IsBound lines := by
  simp only [resolveEntry_eq_ok_iff, Entry.resolve_eq_ok_iff, ← Value.exists_denotes_iff]
  constructor
  · rintro ⟨_, n, hn, -⟩
    exact ⟨n, hn⟩
  · rintro ⟨n, hn⟩
    exact ⟨_, n, hn, rfl⟩

theorem mapM_resolveEntry_eq_error_iff {d : Diagnostic} :
    (entriesOf lines).mapM (resolveEntry (symbolTable (taggedEntries lines))) = .error d ↔
      FirstUnbound lines d := by
  simp only [mapM_eq_error_iff, exists_resolveEntry_iff, resolveEntry_eq_error_iff,
    Value.resolve_eq_error_iff, FirstUnbound]
  constructor
  · rintro ⟨before, e, after, hl, hb, _, ⟨tag, hv, ht, rfl⟩, rfl⟩
    exact ⟨before, e, after, tag, hl, hb, hv, ht, rfl⟩
  · rintro ⟨before, e, after, tag, hl, hb, hv, ht, rfl⟩
    exact ⟨before, e, after, hl, hb, _, ⟨tag, hv, ht, rfl⟩, rfl⟩

theorem link_eq_error_iff {d : Diagnostic} :
    link f checkSize lines = .error d ↔
      if checkSize = true ∧ storeSize < (entriesOf lines).length then
        d = Fault.unplaced (.programTooLong (entriesOf lines).length storeSize)
      else FirstUnbound lines d := by
  rw [link_eq]
  by_cases h : checkSize = true ∧ storeSize < (entriesOf lines).length
  · simp [h.1, h.2, eq_comm]
  · simp [h, map_eq_error_iff, mapM_resolveEntry_eq_error_iff]

theorem linkedFrom_of_link {p : Program} (h : link f checkSize lines = .ok p) :
    p.LinkedFrom f lines := by
  obtain ⟨-, hf, hs, hi⟩ := link_eq_ok_iff.mp h
  have hl : ∀ tag n, p.symbols.lookup tag = some n → ∃ q : Nat, n = q ∧ LastBoundAt lines tag q :=
    fun tag n hn => (lookup_symbolTable_iff lines tag n).mp (hs ▸ hn)
  refine ⟨hf, ?_, fun tag => ?_, hl, fun tag n hn => ?_, fun tag other n hn ho => ?_, ?_⟩
  · rw [hs]
    exact SymbolTable.nodup_names_ofBindings _
  · rw [hs, mem_names_symbolTable_iff]
  · obtain ⟨q, rfl, hq⟩ := hl tag n hn
    exact Int.ofNat_lt.mpr hq.boundAt.lt
  · obtain ⟨q, rfl, hq⟩ := hl tag n hn
    obtain ⟨r, hr, ho⟩ := hl other q ho
    exact hq.boundAt.eq_of_position (Int.ofNat.inj hr ▸ ho.boundAt)
  · refine hi.imp fun e i he => ?_
    obtain ⟨n, hn, rfl⟩ := he
    exact ⟨n, hs ▸ Value.number?_eq_some_iff.mpr hn, rfl⟩

theorem fits_iff :
    checkSize = false ∨ (entriesOf lines).length ≤ storeSize ↔
      ¬(checkSize = true ∧ storeSize < (entriesOf lines).length) := by
  rw [not_and_or, Bool.not_eq_true, Nat.not_lt]

theorem exists_link_iff :
    (∃ p, link f checkSize lines = .ok p) ↔
      (checkSize = false ∨ (entriesOf lines).length ≤ storeSize) ∧
        ∀ e ∈ entriesOf lines, e.item.value.IsBound lines := by
  have hm : (∃ r, (entriesOf lines).mapM (resolveEntry (symbolTable (taggedEntries lines))) =
      .ok r) ↔ ∀ e ∈ entriesOf lines, e.item.value.IsBound lines := by
    rw [exists_mapM_eq_ok_iff]
    exact forall₂_congr fun e _ => exists_resolveEntry_iff
  rw [link_eq, ← hm]
  by_cases h : checkSize = true ∧ storeSize < (entriesOf lines).length
  · simp [h.1, h.2, Nat.not_le.mpr h.2]
  · have hf := fits_iff.mpr h
    simp only [Bool.and_eq_true, decide_eq_true_eq, h, if_false, map_eq_ok_iff, hf, true_and]
    constructor
    · rintro ⟨_, r, hr, -⟩
      exact ⟨r, hr⟩
    · rintro ⟨r, hr⟩
      exact ⟨_, r, hr, rfl⟩

/-- Linking accepts what fits, or is not checked to, and refers to bound tags only. It fails on the
size whatever the references are, and else on the first reference that is not bound. -/
theorem link_outcome (f : WordFormat) (checkSize : Bool) (lines : List Line) :
    ((∃ p, link f checkSize lines = .ok p) ↔
      (checkSize = false ∨ (entriesOf lines).length ≤ storeSize) ∧
        ∀ e ∈ entriesOf lines, e.item.value.IsBound lines) ∧
    (∀ p, link f checkSize lines = .ok p → p.LinkedFrom f lines) ∧
    ∀ d, link f checkSize lines = .error d ↔
      if checkSize = true ∧ storeSize < (entriesOf lines).length then
        d = Fault.unplaced (.programTooLong (entriesOf lines).length storeSize)
      else FirstUnbound lines d :=
  ⟨exists_link_iff, fun _ h => linkedFrom_of_link h, fun _ => link_eq_error_iff⟩

/-- A tag that is bound twice, one that another declaration cuts off, and one at the end. The first
is accepted, a reference to the second is refused, and a program that is too long in any case. -/
theorem link_outcome_shadowedTags :
    let f := WordFormat.standard
    let place (s : Statement) : Line := ⟨s, some ⟨"in".toList, 1, 1⟩, none⟩
    let jump := Statement.entry (.order .jump (.reference ['a']))
    let word := Statement.entry (.data (.reference ['b']))
    let lines := [.tag ['b'], .tag ['a'], jump, .tag ['a'], jump, .tag ['c']].map place
    let p : Program := ⟨[⟨.jump, 1⟩, ⟨.jump, 1⟩], [(['a'], 1)], f⟩
    let d : Diagnostic := ⟨.unknownTag ['b'] [], some ⟨"in".toList, 1, 1⟩, none⟩
    (link f true lines = .ok p ∧ p.LinkedFrom f lines) ∧
      (link f true (lines ++ [place word]) = .error d ∧
        FirstUnbound (lines ++ [place word]) d) ∧
      link f true (List.replicate 33 (place word)) =
        .error (Fault.unplaced (.programTooLong 33 32)) := by
  intro f place jump word lines p d
  have hp : link f true lines = .ok p := by decide +kernel
  have hd : link f true (lines ++ [place word]) = .error d := by decide +kernel
  have hu := ((link_outcome f true (lines ++ [place word])).2.2 d).mp hd
  rw [if_neg (by decide +kernel)] at hu
  refine ⟨⟨hp, (link_outcome f true lines).2.1 p hp⟩, ⟨hd, hu⟩, ?_⟩
  rw [(link_outcome f true _).2.2, if_pos (by decide +kernel)]
  decide +kernel

end ManchesterBaby
