import Mathlib.Data.Set.Function
import Mathlib.Logic.Equiv.Basic
import ManchesterBaby.Proofs.Link.Linking

/-! Tag names carry no meaning. A program with its tags renamed, distinct ones staying distinct, is
linked to the same instructions, and is refused where the program is refused. Only the names that
are offered for an unbound one may be others. -/

namespace ManchesterBaby

def Placed.map {α β : Type} (g : α → β) (p : Placed α) : Placed β :=
  ⟨g p.item, p.location, p.source⟩

def Value.rename (r : Text → Text) : Value → Value
  | literal n => .literal n
  | reference tag => .reference (r tag)

def Entry.rename (r : Text → Text) : Entry → Entry
  | data value => .data (value.rename r)
  | order kind operand => .order kind (operand.rename r)

def Statement.rename (r : Text → Text) : Statement → Statement
  | tag name => .tag (r name)
  | entry e => .entry (e.rename r)

def Statement.Mentions (tag : Text) : Statement → Prop
  | .tag name => name = tag
  | .entry e => e.value = .reference tag

/-- The names that are declared or referred to. -/
def tagsOf (lines : List Line) : Set Text := {tag | ∃ l ∈ lines, l.item.Mentions tag}

def renameTags (r : Text → Text) (lines : List Line) : List Line :=
  lines.map (Placed.map (Statement.rename r))

def SymbolTable.rename (r : Text → Text) (t : SymbolTable) : SymbolTable :=
  t.map fun s => (r s.1, s.2)

def Program.rename (r : Text → Text) (p : Program) : Program :=
  { p with symbols := p.symbols.rename r }

/-- The name that is unknown is renamed, and what is offered for it is chosen anew. -/
def Fault.rename (r : Text → Text) (names : List Text) : Fault → Fault
  | unknownTag tag _ => .unknownTag (r tag) (Similarity.closest (r tag) (names.map r))
  | fault => fault

/-- The first entry that refers to a tag that is bound nowhere. -/
structure FirstUnboundAt (lines : List Line) (position : Nat) (e : Placed Entry) (tag : Text) :
    Prop where
  getElem? : (entriesOf lines)[position]? = some e
  reference : e.item.value = .reference tag
  unbound : ∀ p, ¬BoundAt lines tag p
  earlier : ∀ x ∈ (entriesOf lines).take position, x.item.value.IsBound lines

variable {r : Text → Text} {lines : List Line}

theorem Entry.value_rename (e : Entry) : (e.rename r).value = e.value.rename r := by
  cases e <;> rfl

theorem Entry.kind_rename (e : Entry) : (e.rename r).kind = e.kind := by
  cases e <;> rfl

theorem taggedFrom_rename (previous : Option Text) (lines : List Line) :
    taggedFrom (previous.map r) (renameTags r lines) =
      (taggedFrom previous lines).map fun e => (e.1.map r, e.2.map (Entry.rename r)) := by
  rw [renameTags]
  fun_induction taggedFrom previous lines with
  | case1 => rfl
  | case2 previous name location source rest ih => exact ih
  | case3 previous e location source rest ih =>
    simp only [List.map_cons, Placed.map, Statement.rename, taggedFrom]
    exact congrArg _ ih

theorem entriesOf_rename (lines : List Line) :
    entriesOf (renameTags r lines) = (entriesOf lines).map (Placed.map (Entry.rename r)) := by
  have h := taggedFrom_rename (r := r) none lines
  rw [Option.map_none] at h
  simp only [← map_snd_taggedEntries, taggedEntries, h, List.map_map]
  rfl

theorem bindings_rename (entries : List TaggedEntry) :
    bindings (entries.map fun e => (e.1.map r, e.2.map (Entry.rename r))) =
      (bindings entries).map fun b => (r b.1, b.2) := by
  simp only [bindings, List.zipIdx_map, List.filterMap_map, List.map_filterMap]
  congr 1
  funext x
  obtain ⟨⟨tag, e⟩, position⟩ := x
  cases tag <;> rfl

namespace SymbolTable

variable {names : Set Text} {table : SymbolTable} {tag : Text}

theorem names_rename (table : SymbolTable) : (table.rename r).names = table.names.map r := by
  simp only [names, rename, List.map_map]
  rfl

theorem lookup_rename (hr : Set.InjOn r names) (hn : ∀ n ∈ table.names, n ∈ names)
    (ht : tag ∈ names) : (table.rename r).lookup (r tag) = table.lookup tag := by
  induction table with
  | nil => rfl
  | cons s rest ih =>
    obtain ⟨n, p⟩ := s
    obtain ⟨hs, hrest⟩ := List.forall_mem_cons.mp hn
    have he : (r tag == r n) = (tag == n) := by
      rw [Bool.eq_iff_iff, beq_iff_eq, beq_iff_eq]
      exact hr.eq_iff ht hs
    change List.lookup (r tag) ((r n, p) :: rename r rest) = _
    rw [List.lookup_cons, List.lookup_cons, he, ih hrest]

theorem bind_rename (hr : Set.InjOn r names) (hn : ∀ n ∈ table.names, n ∈ names)
    (ht : tag ∈ names) (position : Int) :
    (table.rename r).bind (r tag) position = (table.bind tag position).rename r := by
  induction table with
  | nil => rfl
  | cons s rest ih =>
    obtain ⟨n, p⟩ := s
    obtain ⟨hs, hrest⟩ := List.forall_mem_cons.mp hn
    change bind (r tag) position ((r n, p) :: rename r rest) = _
    rw [bind, bind]
    by_cases h : n = tag
    · rw [if_pos h, if_pos (congrArg r h)]
      rfl
    · rw [if_neg h, if_neg fun he => h (hr hs ht he), ih hrest]
      rfl

theorem ofBindings_rename {bindings : List (Text × Int)} (hr : Set.InjOn r names)
    (hb : ∀ b ∈ bindings, b.1 ∈ names) :
    ofBindings (bindings.map fun b => (r b.1, b.2)) = (ofBindings bindings).rename r := by
  -- the table so far holds names of the set only
  suffices h : ∀ table : SymbolTable, (∀ n ∈ table.names, n ∈ names) →
      (bindings.map fun b => (r b.1, b.2)).foldl (fun t b => t.bind b.1 b.2) (table.rename r) =
        (bindings.foldl (fun t b => t.bind b.1 b.2) table).rename r from
    h [] fun n hn => absurd hn List.not_mem_nil
  induction bindings with
  | nil => exact fun _ _ => rfl
  | cons b rest ih =>
    intro table hn
    obtain ⟨hs, hrest⟩ := List.forall_mem_cons.mp hb
    rw [List.map_cons, List.foldl_cons, List.foldl_cons, bind_rename hr hn hs]
    refine ih hrest _ fun n hm => ?_
    rcases mem_names_bind_iff.mp hm with rfl | hm
    · exact hs
    · exact hn n hm

end SymbolTable

theorem mem_tagsOf_of_boundAt {tag : Text} {p : Nat} (h : BoundAt lines tag p) :
    tag ∈ tagsOf lines := by
  obtain ⟨before, line, entry, after, rfl, hl, -⟩ := h
  refine ⟨line, List.mem_append_right _ List.mem_cons_self, ?_⟩
  rw [hl]
  rfl

theorem mem_tagsOf_of_reference {e : Placed Entry} {tag : Text} (he : e ∈ entriesOf lines)
    (hv : e.item.value = .reference tag) : tag ∈ tagsOf lines := by
  obtain ⟨⟨s, location, source⟩, hl, hs⟩ := List.mem_filterMap.mp he
  cases s with
  | tag name => cases hs
  | entry entry =>
    cases hs
    exact ⟨_, hl, hv⟩

theorem symbolTable_rename (hr : Set.InjOn r (tagsOf lines)) :
    symbolTable (taggedEntries (renameTags r lines)) =
      (symbolTable (taggedEntries lines)).rename r := by
  have h := taggedFrom_rename (r := r) none lines
  rw [Option.map_none] at h
  rw [symbolTable, taggedEntries, h, bindings_rename]
  refine SymbolTable.ofBindings_rename hr ?_
  rintro ⟨tag, n⟩ hm
  obtain ⟨p, -, hp⟩ := mem_bindings_iff.mp hm
  exact mem_tagsOf_of_boundAt hp

theorem lookup_symbolTable_rename (hr : Set.InjOn r (tagsOf lines)) {tag : Text}
    (ht : tag ∈ tagsOf lines) :
    (symbolTable (taggedEntries (renameTags r lines))).lookup (r tag) =
      (symbolTable (taggedEntries lines)).lookup tag := by
  rw [symbolTable_rename hr]
  refine SymbolTable.lookup_rename hr (fun n hn => ?_) ht
  obtain ⟨p, hp⟩ := mem_names_symbolTable_iff.mp hn
  exact mem_tagsOf_of_boundAt hp

/-- A tag is bound just if the name that it gets is. -/
theorem exists_boundAt_rename_iff (hr : Set.InjOn r (tagsOf lines)) {tag : Text}
    (ht : tag ∈ tagsOf lines) :
    (∃ p, BoundAt (renameTags r lines) (r tag) p) ↔ ∃ p, BoundAt lines tag p := by
  rw [← mem_names_symbolTable_iff, ← mem_names_symbolTable_iff, SymbolTable.mem_names_iff,
    SymbolTable.mem_names_iff, lookup_symbolTable_rename hr ht]

theorem isBound_rename_iff (hr : Set.InjOn r (tagsOf lines)) {e : Placed Entry}
    (he : e ∈ entriesOf lines) :
    (e.item.rename r).value.IsBound (renameTags r lines) ↔ e.item.value.IsBound lines := by
  rw [Entry.value_rename]
  cases hv : e.item.value with
  | literal n => exact Iff.rfl
  | reference tag => exact exists_boundAt_rename_iff hr (mem_tagsOf_of_reference he hv)

theorem resolveEntry_rename (hr : Set.InjOn r (tagsOf lines)) {e : Placed Entry}
    (he : e ∈ entriesOf lines) :
    let table := symbolTable (taggedEntries lines)
    resolveEntry (symbolTable (taggedEntries (renameTags r lines)))
        (e.map (Entry.rename r)) =
      (resolveEntry table e).mapError (Placed.map (Fault.rename r table.names)) := by
  intro table
  simp only [resolveEntry, Entry.resolve, Placed.map, Entry.value_rename, Entry.kind_rename]
  cases hv : e.item.value with
  | literal n => rfl
  | reference tag =>
    simp only [Value.rename, Value.resolve,
      lookup_symbolTable_rename hr (mem_tagsOf_of_reference he hv)]
    cases (symbolTable (taggedEntries lines)).lookup tag with
    | some position => rfl
    | none =>
      rw [symbolTable_rename hr, SymbolTable.names_rename]
      rfl

/-- Renaming commutes with linking. -/
theorem link_renameTags (f : WordFormat) (checkSize : Bool) (hr : Set.InjOn r (tagsOf lines)) :
    link f checkSize (renameTags r lines) =
      ((link f checkSize lines).map (Program.rename r)).mapError
        (Placed.map (Fault.rename r (symbolTable (taggedEntries lines)).names)) := by
  have hm := mapM_congr fun e he => resolveEntry_rename (e := e) hr he
  rw [link_eq, link_eq, entriesOf_rename, List.length_map]
  split
  · rfl
  · rw [List.mapM_map, Function.comp_def, hm, mapM_mapError, symbolTable_rename hr]
    cases (entriesOf lines).mapM (resolveEntry (symbolTable (taggedEntries lines))) <;> rfl

theorem firstUnboundAt_rename (hr : Set.InjOn r (tagsOf lines)) {position : Nat} {e : Placed Entry}
    {tag : Text} (h : FirstUnboundAt lines position e tag) :
    FirstUnboundAt (renameTags r lines) position (e.map (Entry.rename r)) (r tag) := by
  have he := List.mem_of_getElem? h.getElem?
  have ht := mem_tagsOf_of_reference he h.reference
  refine ⟨?_, ?_, ?_, ?_⟩
  · rw [entriesOf_rename, List.getElem?_map, h.getElem?]
    rfl
  · exact (Entry.value_rename e.item).trans (congrArg (Value.rename r) h.reference)
  · intro p hp
    obtain ⟨q, hq⟩ := (exists_boundAt_rename_iff hr ht).mp ⟨p, hp⟩
    exact h.unbound q hq
  · rw [entriesOf_rename, ← List.map_take]
    intro x hx
    obtain ⟨y, hy, rfl⟩ := List.mem_map.mp hx
    exact (isBound_rename_iff hr (List.mem_of_mem_take hy)).mpr (h.earlier y hy)

theorem exists_firstUnboundAt {d : Diagnostic} (h : FirstUnbound lines d) :
    ∃ position e tag, FirstUnboundAt lines position e tag ∧
      d = ⟨.unknownTag tag (Similarity.closest tag (symbolTable (taggedEntries lines)).names),
        e.location, e.source⟩ := by
  obtain ⟨before, e, after, tag, hl, hb, hv, ht, rfl⟩ := h
  refine ⟨before.length, e, tag, ⟨?_, hv, ht, ?_⟩, rfl⟩
  · rw [hl, List.getElem?_append_right (Nat.le_refl _), Nat.sub_self, List.getElem?_cons_zero]
  · rwa [hl, List.take_left]

/-- A renaming under which different tags of the program stay different changes nothing but names:
linking succeeds as before, on the same instructions and words, or fails as before, on the same
size or at the same entry. -/
theorem link_renameTags_outcome {f : WordFormat} {checkSize : Bool}
    (hr : Set.InjOn r (tagsOf lines)) :
    ((∃ q, link f checkSize (renameTags r lines) = .ok q) ↔ ∃ p, link f checkSize lines = .ok p) ∧
    (∀ p, link f checkSize lines = .ok p → ∃ q, link f checkSize (renameTags r lines) = .ok q ∧
      q.instructions = p.instructions ∧ q.words = p.words ∧ q.store = p.store ∧
      q.symbols = p.symbols.rename r) ∧
    ∀ d, link f checkSize lines = .error d →
      (∃ size : Nat, d = Fault.unplaced (.programTooLong size storeSize) ∧
        link f checkSize (renameTags r lines) = .error d) ∨
      ∃ position e tag similar others, FirstUnboundAt lines position e tag ∧
        d = ⟨.unknownTag tag similar, e.location, e.source⟩ ∧
        FirstUnboundAt (renameTags r lines) position (e.map (Entry.rename r)) (r tag) ∧
        link f checkSize (renameTags r lines) =
          .error ⟨.unknownTag (r tag) others, e.location, e.source⟩ := by
  have h := link_renameTags f checkSize hr
  refine ⟨?_, fun p hp => ?_, fun d hd => ?_⟩
  · rw [h]
    cases link f checkSize lines <;> simp [Except.map, Except.mapError]
  · rw [hp] at h
    exact ⟨p.rename r, h, rfl, rfl, rfl, rfl⟩
  · rw [hd] at h
    rw [link_eq_error_iff] at hd
    split at hd
    · subst hd
      exact .inl ⟨_, rfl, h⟩
    · obtain ⟨position, e, tag, hu, rfl⟩ := exists_firstUnboundAt hd
      exact .inr ⟨position, e, tag, _, _, hu, rfl, firstUnboundAt_rename hr hu, h⟩

/-- Two names change places. One is bound twice, the other is cut off by it, so that a reference to
it is refused at the third entry. -/
theorem link_renameTags_outcome_swapped :
    let f := WordFormat.standard
    let place (s : Statement) : Line := ⟨s, some ⟨"in".toList, 1, 1⟩, none⟩
    let jump := Statement.entry (.order .jump (.reference ['a']))
    let word := Statement.entry (.data (.reference ['b']))
    let lines := [.tag ['b'], .tag ['a'], jump, .tag ['a'], jump].map place
    let r := Equiv.swap ['a'] ['b']
    let p : Program := ⟨[⟨.jump, 1⟩, ⟨.jump, 1⟩], [(['a'], 1)], f⟩
    link f true lines = .ok p ∧
      (∃ q, link f true (renameTags r lines) = .ok q ∧ q.instructions = p.instructions ∧
        q.symbols = [(['b'], 1)]) ∧
      ∃ others, link f true (renameTags r (lines ++ [place word])) =
        .error ⟨.unknownTag ['a'] others, some ⟨"in".toList, 1, 1⟩, none⟩ := by
  intro f place jump word lines r p
  have hp : link f true lines = .ok p := by decide +kernel
  have hd : link f true (lines ++ [place word]) =
      .error ⟨.unknownTag ['b'] [], some ⟨"in".toList, 1, 1⟩, none⟩ := by decide +kernel
  obtain ⟨q, hq, hi, -, -, hs⟩ := (link_renameTags_outcome r.injective.injOn).2.1 p hp
  refine ⟨hp, ⟨q, hq, hi, hs.trans (by decide +kernel)⟩, ?_⟩
  rcases (link_renameTags_outcome r.injective.injOn).2.2 _ hd with ⟨size, he, -⟩ |
    ⟨position, e, tag, similar, others, -, he, -, hl⟩
  · cases he
  · simp only [Placed.mk.injEq, Fault.unknownTag.injEq] at he
    obtain ⟨⟨rfl, -⟩, hlocation, hsource⟩ := he
    refine ⟨others, ?_⟩
    rw [hl, ← hlocation, ← hsource, show r ['b'] = ['a'] from Equiv.swap_apply_right _ _]

end ManchesterBaby
