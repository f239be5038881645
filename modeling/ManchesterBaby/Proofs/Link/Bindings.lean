import Mathlib.Data.List.Induction
import ManchesterBaby.Link.SymbolTable

/-! Where tags are bound, said on the lines of a program alone: a tag stands for the entry that its
declaration stands directly before. The symbol table holds the last position of every tag. -/

namespace ManchesterBaby

def Placed.entry? : Line → Option (Placed Entry)
  | ⟨.tag _, _, _⟩ => none
  | ⟨.entry e, location, source⟩ => some ⟨e, location, source⟩

/-- The entries of a program in order, by which positions are counted. -/
def entriesOf (lines : List Line) : List (Placed Entry) := lines.filterMap Placed.entry?

/-- The tag is declared directly before the entry at the position. -/
def BoundAt (lines : List Line) (tag : Text) (position : Nat) : Prop :=
  ∃ before line entry after, lines = before ++ line :: entry :: after ∧ line.item = .tag tag ∧
    entry.entry?.isSome ∧ (entriesOf before).length = position

structure LastBoundAt (lines : List Line) (tag : Text) (position : Nat) : Prop where
  boundAt : BoundAt lines tag position
  le : ∀ p, BoundAt lines tag p → p ≤ position

variable {lines rest : List Line} {tag : Text} {p : Nat}

theorem entriesOf_append (before after : List Line) :
    entriesOf (before ++ after) = entriesOf before ++ entriesOf after :=
  List.filterMap_append

theorem mk_mem_of_mem_entriesOf {e : Placed Entry} (h : e ∈ entriesOf lines) :
    ⟨.entry e.item, e.location, e.source⟩ ∈ lines := by
  obtain ⟨⟨s, location, source⟩, hl, he⟩ := List.mem_filterMap.mp h
  cases s with
  | tag name => cases he
  | entry entry =>
    cases he
    exact hl

theorem length_entriesOf_cons (line : Line) (rest : List Line) :
    (entriesOf (line :: rest)).length = (entriesOf rest).length + (entriesOf [line]).length := by
  rw [← List.singleton_append, entriesOf_append, List.length_append, Nat.add_comm]

theorem BoundAt.lt (h : BoundAt lines tag p) : p < (entriesOf lines).length := by
  obtain ⟨before, line, entry, after, rfl, -, he, rfl⟩ := h
  obtain ⟨e, he⟩ := Option.isSome_iff_exists.mp he
  rw [entriesOf_append, List.length_append, length_entriesOf_cons]
  simp only [entriesOf, List.filterMap_cons_some he, List.length_cons]
  omega

theorem map_snd_taggedFrom (previous : Option Text) (lines : List Line) :
    (taggedFrom previous lines).map (·.2) = entriesOf lines := by
  fun_induction taggedFrom previous lines with
  | case1 => rfl
  | case2 previous name location source rest ih => exact ih
  | case3 previous e location source rest ih =>
    exact congrArg (⟨e, location, source⟩ :: ·) ih

theorem map_snd_taggedEntries (lines : List Line) :
    (taggedEntries lines).map (·.2) = entriesOf lines :=
  map_snd_taggedFrom none lines

def StartsWithEntry (lines : List Line) : Prop :=
  ∃ entry after, lines = entry :: after ∧ entry.entry?.isSome

theorem boundAt_cons_iff {line : Line} :
    BoundAt (line :: rest) tag p ↔
      (line.item = .tag tag ∧ p = 0 ∧ StartsWithEntry rest) ∨
        ∃ q, BoundAt rest tag q ∧ p = q + (entriesOf [line]).length := by
  constructor
  · rintro ⟨before, l, entry, after, h, hl, he, hp⟩
    cases before with
    | nil =>
      simp only [List.nil_append, List.cons.injEq] at h
      obtain ⟨rfl, rfl⟩ := h
      exact .inl ⟨hl, hp.symm, entry, after, rfl, he⟩
    | cons first before =>
      simp only [List.cons_append, List.cons.injEq] at h
      obtain ⟨rfl, rfl⟩ := h
      refine .inr ⟨(entriesOf before).length, ⟨before, l, entry, after, rfl, hl, he, rfl⟩, ?_⟩
      rw [← hp, length_entriesOf_cons]
  · rintro (⟨hl, rfl, entry, after, rfl, he⟩ |
      ⟨q, ⟨before, l, entry, after, rfl, hl, he, rfl⟩, rfl⟩)
    · exact ⟨[], line, entry, after, rfl, hl, he, rfl⟩
    · exact ⟨line :: before, l, entry, after, rfl, hl, he, length_entriesOf_cons ..⟩

theorem not_boundAt_nil : ¬BoundAt [] tag p := by
  rintro ⟨before, line, entry, after, h, -⟩
  simp at h

/-- `previous` stands for a declaration directly before the lines. -/
theorem taggedFrom_getElem?_iff {previous : Option Text} :
    (∃ e, (taggedFrom previous lines)[p]? = some (some tag, e)) ↔
      (previous = some tag ∧ p = 0 ∧ StartsWithEntry lines) ∨ BoundAt lines tag p := by
  fun_induction taggedFrom previous lines generalizing p with
  | case1 previous => simp [StartsWithEntry, not_boundAt_nil]
  | case2 previous name location source rest ih =>
    have hs : ¬StartsWithEntry (⟨.tag name, location, source⟩ :: rest) := by
      rintro ⟨entry, after, h, he⟩
      cases h
      simp [Placed.entry?] at he
    have hn : (entriesOf [⟨.tag name, location, source⟩]).length = 0 := rfl
    simp only [ih, boundAt_cons_iff, hs, hn, Statement.tag.injEq, Option.some.injEq, Nat.add_zero,
      exists_eq_right', and_false, false_or]
  | case3 previous e location source rest ih =>
    have hs : StartsWithEntry (⟨.entry e, location, source⟩ :: rest) := ⟨_, _, rfl, rfl⟩
    have hn : (entriesOf [⟨.entry e, location, source⟩]).length = 1 := rfl
    cases p with
    | zero => simp [boundAt_cons_iff, hs, hn]
    | succ p =>
      simp only [List.getElem?_cons_succ, ih, boundAt_cons_iff, hn, reduceCtorEq, false_and,
        false_or, Nat.add_right_cancel_iff, exists_eq_right', and_false, Nat.succ_ne_zero]

theorem taggedEntries_getElem?_iff :
    (∃ e, (taggedEntries lines)[p]? = some (some tag, e)) ↔ BoundAt lines tag p := by
  rw [taggedEntries, taggedFrom_getElem?_iff]
  simp

theorem mem_bindings_iff {n : Int} :
    (tag, n) ∈ bindings (taggedEntries lines) ↔ ∃ p : Nat, n = p ∧ BoundAt lines tag p := by
  simp only [← taggedEntries_getElem?_iff, bindings, List.mem_filterMap, Prod.exists,
    List.mk_mem_zipIdx_iff_getElem?, Option.map_eq_some_iff, Prod.mk.injEq]
  constructor
  · rintro ⟨t, e, p, h, name, ht, rfl, rfl⟩
    exact ⟨p, rfl, e, ht ▸ h⟩
  · rintro ⟨p, rfl, e, h⟩
    exact ⟨some tag, e, p, h, tag, rfl, rfl, rfl⟩

theorem bindings_pairwise (entries : List TaggedEntry) :
    (bindings entries).Pairwise fun b c => b.2 < c.2 := by
  have h : entries.zipIdx.Pairwise fun e g => e.2 < g.2 := by
    rw [← List.pairwise_map, List.zipIdx_map_snd]
    exact List.pairwise_lt_range'
  refine List.Pairwise.filterMap _ ?_ h
  rintro ⟨e, i⟩ ⟨g, j⟩ hij b hb c hc
  simp only [Option.map_eq_some_iff] at hb hc
  obtain ⟨_, _, rfl⟩ := hb
  obtain ⟨_, _, rfl⟩ := hc
  exact Int.ofNat_lt.mpr hij

/-- No two tags are bound to one position, as only one line stands directly before an entry. -/
theorem BoundAt.eq_of_position {other : Text} (h : BoundAt lines tag p)
    (ho : BoundAt lines other p) : tag = other := by
  obtain ⟨e, he⟩ := taggedEntries_getElem?_iff.mpr h
  obtain ⟨g, hg⟩ := taggedEntries_getElem?_iff.mpr ho
  rw [he] at hg
  simp only [Option.some.injEq, Prod.mk.injEq] at hg
  exact hg.1

theorem reverse_append_lookup (bindings : List (Text × Int)) (name other : Text) (n : Int) :
    (bindings ++ [(other, n)]).reverse.lookup name =
      if name = other then some n else bindings.reverse.lookup name := by
  rw [List.reverse_append, List.reverse_singleton, List.singleton_append, List.lookup_cons]
  by_cases h : name = other
  · simp [h]
  · simp [h, beq_false_of_ne h]

theorem lookup_ofBindings (bindings : List (Text × Int)) (name : Text) :
    (SymbolTable.ofBindings bindings).lookup name = bindings.reverse.lookup name := by
  induction bindings using List.reverseRecOn with
  | nil => rfl
  | append_singleton bindings b ih =>
    rw [reverse_append_lookup, ← ih, SymbolTable.ofBindings, List.foldl_append]
    exact SymbolTable.lookup_bind ..

/-- Of a list that grows, the last binding of a name is the greatest. -/
theorem reverse_lookup_eq_some_iff {bindings : List (Text × Int)}
    (h : bindings.Pairwise fun b c => b.2 < c.2) {name : Text} {n : Int} :
    bindings.reverse.lookup name = some n ↔
      (name, n) ∈ bindings ∧ ∀ k, (name, k) ∈ bindings → k ≤ n := by
  induction bindings using List.reverseRecOn with
  | nil => simp
  | append_singleton bindings b ih =>
    obtain ⟨hl, -, hb⟩ := List.pairwise_append.mp h
    obtain ⟨other, last⟩ := b
    have hlt : ∀ j, (name, j) ∈ bindings → j < last := fun j hj =>
      hb (name, j) hj (other, last) (List.mem_singleton_self _)
    rw [reverse_append_lookup]
    by_cases hn : name = other
    · subst hn
      simp only [if_true, Option.some.injEq, List.mem_append, List.mem_singleton, Prod.mk.injEq,
        true_and]
      constructor
      · rintro rfl
        refine ⟨.inr rfl, fun j hj => ?_⟩
        rcases hj with hj | rfl
        · exact Int.le_of_lt (hlt j hj)
        · exact Int.le_refl _
      · rintro ⟨hm | rfl, hle⟩
        · exact absurd (hlt n hm) (Int.not_lt.mpr (hle last (.inr rfl)))
        · rfl
    · simp [hn, ih hl]

theorem lookup_symbolTable_iff (lines : List Line) (tag : Text) (n : Int) :
    (symbolTable (taggedEntries lines)).lookup tag = some n ↔
      ∃ p : Nat, n = p ∧ LastBoundAt lines tag p := by
  rw [symbolTable, lookup_ofBindings, reverse_lookup_eq_some_iff (bindings_pairwise _)]
  simp only [mem_bindings_iff]
  constructor
  · rintro ⟨⟨p, rfl, hp⟩, hle⟩
    exact ⟨p, rfl, hp, fun q hq => by exact_mod_cast hle q ⟨q, rfl, hq⟩⟩
  · rintro ⟨p, rfl, hp, hle⟩
    refine ⟨⟨p, rfl, hp⟩, ?_⟩
    rintro k ⟨q, rfl, hq⟩
    exact_mod_cast hle q hq

theorem lookup_symbolTable_eq_none_iff :
    (symbolTable (taggedEntries lines)).lookup tag = none ↔ ∀ p, ¬BoundAt lines tag p := by
  rw [symbolTable, lookup_ofBindings, List.lookup_eq_none_iff]
  constructor
  · intro h p hp
    have hm := mem_bindings_iff.mpr ⟨p, rfl, hp⟩
    simpa using h _ (List.mem_reverse.mpr hm)
  · rintro h ⟨name, n⟩ hm
    rw [List.mem_reverse] at hm
    rw [bne_iff_ne]
    rintro rfl
    obtain ⟨p, -, hp⟩ := mem_bindings_iff.mp hm
    exact h p hp

namespace SymbolTable

variable {name other : Text} {table : SymbolTable}

theorem mem_names_iff : name ∈ table.names ↔ table.lookup name ≠ none := by
  rw [Option.ne_none_iff_isSome, List.lookup_isSome_iff, names, List.mem_map]
  constructor
  · rintro ⟨s, hs, rfl⟩
    exact ⟨s, hs, beq_self_eq_true _⟩
  · rintro ⟨s, hs, he⟩
    exact ⟨s, hs, (eq_of_beq he).symm⟩

theorem mem_names_bind_iff {position : Int} :
    other ∈ (table.bind name position).names ↔ other = name ∨ other ∈ table.names := by
  rw [mem_names_iff, mem_names_iff, lookup_bind]
  by_cases h : other = name <;> simp [h]

theorem nodup_names_bind (h : table.names.Nodup) (position : Int) :
    (table.bind name position).names.Nodup := by
  induction table with
  | nil => simp [bind, names]
  | cons s rest ih =>
    obtain ⟨n, p⟩ := s
    obtain ⟨hn, hr⟩ := List.nodup_cons.mp h
    rw [bind]
    split
    · exact h
    · next hne =>
      refine List.nodup_cons.mpr ⟨?_, ih hr⟩
      intro hm
      rcases mem_names_bind_iff.mp hm with he | hm
      · exact hne he
      · exact hn hm

theorem nodup_names_ofBindings (bindings : List (Text × Int)) :
    (ofBindings bindings).names.Nodup := by
  induction bindings using List.reverseRecOn with
  | nil => exact List.nodup_nil
  | append_singleton bindings b ih =>
    rw [ofBindings, List.foldl_append]
    exact nodup_names_bind ih b.2

end SymbolTable

theorem mem_names_symbolTable_iff :
    tag ∈ (symbolTable (taggedEntries lines)).names ↔ ∃ p, BoundAt lines tag p := by
  rw [SymbolTable.mem_names_iff, ne_eq, lookup_symbolTable_eq_none_iff, not_forall_not]

end ManchesterBaby
