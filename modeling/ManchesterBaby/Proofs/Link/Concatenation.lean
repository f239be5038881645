import ManchesterBaby.Proofs.Link.Linking

/-! Programs one after the other. The symbols of the second stand further on by the entries of the
first and are put over those of the first, and so its references move and its literals do not. -/

namespace ManchesterBaby

namespace SymbolTable

/-- Every position further on by `k`. -/
def shift (k : Nat) (t : SymbolTable) : SymbolTable := t.map fun s => (s.1, s.2 + k)

/-- The bindings of the second table put over those of the first, where a name that is there already
keeps its place. -/
def override (t u : SymbolTable) : SymbolTable := u.foldl (fun table s => table.bind s.1 s.2) t

variable {name other : Text} {m n : Int} {t u : SymbolTable}

theorem names_shift (k : Nat) (t : SymbolTable) : (t.shift k).names = t.names := by
  simp only [names, shift, List.map_map]
  rfl

theorem lookup_shift (k : Nat) (t : SymbolTable) (name : Text) :
    (t.shift k).lookup name = (t.lookup name).map (· + (k : Int)) := by
  induction t with
  | nil => rfl
  | cons s rest ih =>
    obtain ⟨other, n⟩ := s
    change List.lookup name ((other, n + (k : Int)) :: shift k rest) = _
    rw [List.lookup_cons, List.lookup_cons, ih]
    cases name == other <;> rfl

theorem bind_shift (k : Nat) (name : Text) (n : Int) (t : SymbolTable) :
    (t.shift k).bind name (n + k) = (t.bind name n).shift k := by
  induction t with
  | nil => rfl
  | cons s rest ih =>
    obtain ⟨other, m⟩ := s
    change bind name (n + k) ((other, m + (k : Int)) :: shift k rest) = _
    rw [bind, bind, ih]
    by_cases h : other = name
    · rw [if_pos h, if_pos h]
      rfl
    · rw [if_neg h, if_neg h]
      rfl

theorem ofBindings_shift (k : Nat) (bindings : List (Text × Int)) :
    ofBindings (shift k bindings) = (ofBindings bindings).shift k := by
  induction bindings using List.reverseRecOn with
  | nil => rfl
  | append_singleton bindings b ih =>
    have hs : shift k (bindings ++ [b]) = shift k bindings ++ [(b.1, b.2 + (k : Int))] :=
      List.map_append
    rw [hs, ofBindings, List.foldl_append, ofBindings, List.foldl_append]
    exact (congrArg (bind b.1 (b.2 + k)) ih).trans (bind_shift k b.1 b.2 _)

theorem bind_bind_self (name : Text) (m n : Int) (t : SymbolTable) :
    (t.bind name m).bind name n = t.bind name n := by
  induction t with
  | nil => simp [bind]
  | cons s rest ih =>
    obtain ⟨other, k⟩ := s
    rw [bind, bind]
    by_cases h : other = name
    · rw [if_pos h, if_pos h, bind, if_pos h]
    · rw [if_neg h, if_neg h, bind, if_neg h, ih]

/-- A name that is in the table is bound in its place, whatever is bound before. -/
theorem bind_bind_of_mem (hm : name ∈ t.names) (hne : other ≠ name) (m n : Int) :
    (t.bind other m).bind name n = (t.bind name n).bind other m := by
  induction t with
  | nil => exact absurd hm List.not_mem_nil
  | cons s rest ih =>
    obtain ⟨first, k⟩ := s
    rw [bind, bind]
    by_cases hf : first = name
    · subst hf
      rw [if_neg (Ne.symm hne), if_pos rfl, bind, if_pos rfl, bind, if_neg (Ne.symm hne)]
    · have hr : name ∈ names rest := by simpa [names, Ne.symm hf] using hm
      by_cases ho : first = other
      · rw [if_pos ho, if_neg hf, bind, if_neg hf, bind, if_pos ho]
      · rw [if_neg ho, if_neg hf, bind, if_neg hf, bind, if_neg ho, ih hr]

theorem override_bind_of_mem (hm : name ∈ t.names) (hn : name ∉ u.names) (n : Int) :
    (t.bind name n).override u = (t.override u).bind name n := by
  induction u generalizing t with
  | nil => rfl
  | cons s rest ih =>
    obtain ⟨other, m⟩ := s
    obtain ⟨hne, hrest⟩ := not_or.mp (List.mem_cons.not.mp hn)
    change ((t.bind name n).bind other m).override rest =
      ((t.bind other m).override rest).bind name n
    rw [← bind_bind_of_mem hm (Ne.symm hne)]
    exact ih (mem_names_bind_iff.mpr (.inr hm)) hrest

theorem override_bind (h : u.names.Nodup) (t : SymbolTable) (name : Text) (n : Int) :
    t.override (u.bind name n) = (t.override u).bind name n := by
  induction u generalizing t with
  | nil => rfl
  | cons s rest ih =>
    obtain ⟨other, m⟩ := s
    obtain ⟨hn, hrest⟩ := List.nodup_cons.mp h
    rw [bind]
    by_cases ho : other = name
    · subst ho
      have hm : other ∈ (t.bind other m).names := mem_names_bind_iff.mpr (.inl rfl)
      rw [if_pos rfl]
      change (t.bind other n).override rest = ((t.bind other m).override rest).bind other n
      rw [← override_bind_of_mem hm hn, bind_bind_self]
    · rw [if_neg ho]
      exact ih hrest (t.bind other m)

theorem ofBindings_append (bindings more : List (Text × Int)) :
    ofBindings (bindings ++ more) = (ofBindings bindings).override (ofBindings more) := by
  induction more using List.reverseRecOn with
  | nil =>
    rw [List.append_nil]
    rfl
  | append_singleton more b ih =>
    have hb : ∀ bs : List (Text × Int), ofBindings (bs ++ [b]) = (ofBindings bs).bind b.1 b.2 :=
      fun bs => by rw [ofBindings, List.foldl_append]; rfl
    rw [← List.append_assoc, hb, hb, ih, override_bind (nodup_names_ofBindings more)]

theorem lookup_override (h : u.names.Nodup) (t : SymbolTable) (name : Text) :
    (t.override u).lookup name = (u.lookup name).or (t.lookup name) := by
  induction u generalizing t with
  | nil => rfl
  | cons s rest ih =>
    obtain ⟨other, n⟩ := s
    obtain ⟨hn, hrest⟩ := List.nodup_cons.mp h
    change ((t.bind other n).override rest).lookup name = _
    rw [ih hrest, lookup_bind, List.lookup_cons]
    by_cases he : name = other
    · subst he
      have hnone : rest.lookup name = none := not_not.mp (mem_names_iff.not.mp hn)
      simp [hnone]
    · simp [he, beq_false_of_ne he]

end SymbolTable

variable {above below : List Line}

/-- The last of the lines, if there is one, is no declaration that waits for its entry. -/
def EndsWithEntry (lines : List Line) : Prop := ∀ l ∈ lines.getLast?, ∀ tag, l.item ≠ .tag tag

theorem EndsWithEntry.tail {line : Line} {rest : List Line} (h : EndsWithEntry (line :: rest)) :
    EndsWithEntry rest := by
  intro l hl
  refine h l ?_
  rw [List.getLast?_cons, hl]
  rfl

theorem taggedFrom_append {previous : Option Text} (h : EndsWithEntry above)
    (hp : above = [] → previous = none) :
    taggedFrom previous (above ++ below) = taggedFrom previous above ++ taggedEntries below := by
  fun_induction taggedFrom previous above with
  | case1 previous =>
    rw [hp rfl]
    rfl
  | case2 previous name location source rest ih =>
    refine ih h.tail ?_
    rintro rfl
    exact absurd rfl (h _ rfl name)
  | case3 previous e location source rest ih =>
    exact congrArg ((previous, ⟨e, location, source⟩) :: ·) (ih h.tail fun _ => rfl)

theorem bindings_append (entries more : List TaggedEntry) :
    bindings (entries ++ more) =
      bindings entries ++ SymbolTable.shift entries.length (bindings more) := by
  have hz : more.zipIdx (0 + entries.length) =
      more.zipIdx.map (Prod.map id (· + entries.length)) := by
    rw [List.map_snd_add_zipIdx_eq_zipIdx, Nat.add_comm]
  have hs : SymbolTable.shift entries.length (bindings more) =
      (more.zipIdx.map (Prod.map id (· + entries.length))).filterMap
        fun x => x.1.1.map (·, (x.2 : Int)) := by
    rw [SymbolTable.shift, bindings, List.map_filterMap, List.filterMap_map]
    congr 1
    funext x
    obtain ⟨⟨tag, e⟩, position⟩ := x
    cases tag <;> rfl
  rw [hs, ← hz, bindings, List.zipIdx_append, List.filterMap_append]
  rfl

theorem symbolTable_append (h : EndsWithEntry above) :
    symbolTable (taggedEntries (above ++ below)) =
      (symbolTable (taggedEntries above)).override
        ((symbolTable (taggedEntries below)).shift (entriesOf above).length) := by
  have ht : taggedEntries (above ++ below) = taggedEntries above ++ taggedEntries below :=
    taggedFrom_append h fun _ => rfl
  rw [symbolTable, ht, bindings_append, SymbolTable.ofBindings_append,
    SymbolTable.ofBindings_shift, ← map_snd_taggedEntries above, List.length_map]
  rfl

theorem lookup_symbolTable_append (h : EndsWithEntry above) (tag : Text) :
    (symbolTable (taggedEntries (above ++ below))).lookup tag =
      (((symbolTable (taggedEntries below)).lookup tag).map
        (· + ((entriesOf above).length : Int))).or
          ((symbolTable (taggedEntries above)).lookup tag) := by
  have hn : ((symbolTable (taggedEntries below)).shift (entriesOf above).length).names.Nodup := by
    rw [SymbolTable.names_shift]
    exact SymbolTable.nodup_names_ofBindings _
  rw [symbolTable_append h, SymbolTable.lookup_override hn, SymbolTable.lookup_shift]

/-- The instruction of an entry once its tag stands further on by `k`. A literal is left as it is,
and so is an instruction without an operand. -/
def Entry.moved (k : Nat) (e : Entry) (i : Instruction) : Instruction :=
  match e.value with
  | .literal _ => i
  | .reference _ =>
    if i.kind.hasAddress || i.kind = .absoluteValue then { i with operand := i.operand + k } else i

theorem Entry.moved_ofOperand (k : Nat) {e : Entry} {tag : Text} (h : e.value = .reference tag)
    (n : Int) : e.moved k (.ofOperand e.kind n) = .ofOperand e.kind (n + k) := by
  simp only [moved, h]
  generalize e.kind = kind
  cases kind <;> rfl

/-- An entry of the second program resolves to the moved instruction. -/
theorem resolveEntry_below (h : EndsWithEntry above) {e : Placed Entry}
    (hb : e.item.value.IsBound below) :
    resolveEntry (symbolTable (taggedEntries (above ++ below))) e =
      (resolveEntry (symbolTable (taggedEntries below)) e).map
        (e.item.moved (entriesOf above).length) := by
  cases hv : e.item.value with
  | literal n =>
    have hm : e.item.moved (entriesOf above).length = id := by
      funext i
      simp only [Entry.moved, hv, id]
    simp only [resolveEntry, Entry.resolve, hv, Value.resolve, hm]
    rfl
  | reference tag =>
    rw [hv] at hb
    obtain ⟨n, hn⟩ : ∃ n, (symbolTable (taggedEntries below)).lookup tag = some n :=
      Option.ne_none_iff_exists'.mp
        (SymbolTable.mem_names_iff.mp (mem_names_symbolTable_iff.mpr hb))
    have hl : (symbolTable (taggedEntries (above ++ below))).lookup tag = _ :=
      lookup_symbolTable_append h tag
    rw [hn, Option.map_some, Option.some_or] at hl
    simp only [resolveEntry, Entry.resolve, hv, Value.resolve, hn, hl, Except.map,
      Entry.moved_ofOperand _ hv]

/-- An entry of the first program resolves as it does alone, if the second does not bind its tag. -/
theorem resolveEntry_above (h : EndsWithEntry above) {e : Placed Entry} {i : Instruction}
    (hn : ∀ tag q, e.item.value = .reference tag → ¬BoundAt below tag q)
    (hi : resolveEntry (symbolTable (taggedEntries (above ++ below))) e = .ok i) :
    resolveEntry (symbolTable (taggedEntries above)) e = .ok i := by
  cases hv : e.item.value with
  | literal n =>
    simp only [resolveEntry, Entry.resolve, hv, Value.resolve] at hi ⊢
    exact hi
  | reference tag =>
    have hb : (symbolTable (taggedEntries below)).lookup tag = none :=
      lookup_symbolTable_eq_none_iff.mpr fun p => hn tag p hv
    have hl : (symbolTable (taggedEntries (above ++ below))).lookup tag = _ :=
      lookup_symbolTable_append h tag
    rw [hb, Option.map_none, Option.none_or] at hl
    simp only [resolveEntry, Entry.resolve, hv, Value.resolve, hl] at hi ⊢
    cases hf : (symbolTable (taggedEntries above)).lookup tag with
    | none => simp [hf, Except.map] at hi
    | some n => simpa [hf] using hi

theorem link_below {f : WordFormat} {checkSize : Bool} {p : Program} (h : EndsWithEntry above)
    (hp : link f checkSize (above ++ below) = .ok p)
    (hb : ∀ e ∈ entriesOf below, e.item.value.IsBound below) :
    ∃ q, link f checkSize below = .ok q ∧
      p.instructions.drop (entriesOf above).length =
        List.zipWith (fun e i => e.item.moved (entriesOf above).length i) (entriesOf below)
          q.instructions := by
  obtain ⟨hfits, -, -, hm⟩ := link_eq_ok_iff_mapM.mp hp
  rw [entriesOf_append, mapM_append, bind_eq_ok_iff] at hm
  obtain ⟨first, hfirst, hsecond⟩ := hm
  rw [mapM_eq_map_zipWith fun e he => resolveEntry_below h (hb e he), map_eq_ok_iff] at hsecond
  obtain ⟨_, hmoved, hs⟩ := hsecond
  obtain ⟨q, hq, rfl⟩ := map_eq_ok_iff.mp hmoved
  refine ⟨⟨q, symbolTable (taggedEntries below), f⟩, link_eq_ok_iff_mapM.mpr ⟨?_, rfl, rfl, hq⟩, ?_⟩
  · intro hc
    have hle := hfits hc
    rw [entriesOf_append, List.length_append] at hle
    omega
  · have hl := (mapM_eq_ok_iff.mp hfirst).length_eq
    rw [← hs]
    exact List.drop_left' hl.symm

/-- A program in two parts, the first of which leaves no declaration open. The table of the whole is
that of the second part, further on, over that of the first. If the second binds what it refers to,
its instructions are those that it has alone, with their tags moved and all else as it was. What the
first part refers to is as it is there alone, unless the second binds it anew. -/
theorem link_append (h : EndsWithEntry above) :
    let k := (entriesOf above).length
    let first := symbolTable (taggedEntries above)
    let second := symbolTable (taggedEntries below)
    let both := symbolTable (taggedEntries (above ++ below))
    (both = first.override (second.shift k) ∧
      ∀ tag, both.lookup tag = ((second.lookup tag).map (· + (k : Int))).or (first.lookup tag)) ∧
    ∀ (f : WordFormat) (checkSize : Bool) (p : Program),
      link f checkSize (above ++ below) = .ok p →
        p.symbols = both ∧
        ((∀ e ∈ entriesOf below, e.item.value.IsBound below) →
          ∃ q, link f checkSize below = .ok q ∧ p.instructions.drop k =
            List.zipWith (fun e i => e.item.moved k i) (entriesOf below) q.instructions) ∧
        ∀ (n : Nat) (e : Placed Entry), (entriesOf above)[n]? = some e →
          (∀ tag q, e.item.value = .reference tag → ¬BoundAt below tag q) →
            ∃ i, p.instructions[n]? = some i ∧ resolveEntry first e = .ok i := by
  intro k first second both
  refine ⟨⟨symbolTable_append h, lookup_symbolTable_append h⟩, fun f checkSize p hp => ?_⟩
  obtain ⟨-, -, hs, hm⟩ := link_eq_ok_iff_mapM.mp hp
  refine ⟨hs, link_below h hp, fun n e he hn => ?_⟩
  have hboth : (entriesOf (above ++ below))[n]? = some e := by
    rw [entriesOf_append, List.getElem?_append_left (List.getElem?_eq_some_iff.mp he).1, he]
  obtain ⟨hlt, rfl⟩ := List.getElem?_eq_some_iff.mp hboth
  have hall := mapM_eq_ok_iff.mp hm
  have hlt' : n < p.instructions.length := hall.length_eq ▸ hlt
  exact ⟨_, List.getElem?_eq_getElem hlt', resolveEntry_above h hn (hall.get hlt hlt')⟩

/-- The first part has a tag that is cut off, one that it binds itself and one that the second binds
anew. The second binds a name twice, the tags at the seam included, and has literals. -/
theorem link_append_reboundTags :
    let place (s : Statement) : Line := ⟨s, none, none⟩
    let jump (tag : Text) := Statement.entry (.order .jump (.reference tag))
    let above := [.tag ['b'], .tag ['a'], jump ['a'], .tag ['c'], jump ['c']].map place
    let below := [.tag ['c'], jump ['d'], .tag ['c'], .entry (.data (.reference ['c'])),
      .tag ['d'], .entry (.order .store (.literal 1)), .entry (.bare .stop)].map place
    let p : Program := ⟨[⟨.jump, 0⟩, ⟨.jump, 3⟩, ⟨.jump, 4⟩, ⟨.absoluteValue, 3⟩, ⟨.store, 1⟩,
      ⟨.stop, 0⟩], [(['a'], 0), (['c'], 3), (['d'], 4)], .standard⟩
    EndsWithEntry above ∧ link .standard true (above ++ below) = .ok p ∧
      (∀ e ∈ entriesOf below, e.item.value.IsBound below) ∧
      (∃ q, link .standard true below = .ok q ∧ p.instructions.drop 2 =
        List.zipWith (fun e i => e.item.moved 2 i) (entriesOf below) q.instructions) ∧
      ∃ e i, (entriesOf above)[0]? = some e ∧ p.instructions[0]? = some i ∧
        resolveEntry (symbolTable (taggedEntries above)) e = .ok i := by
  intro place jump above below p
  have h : EndsWithEntry above := by
    rintro _ ⟨⟩ tag ⟨⟩
  have hp : link .standard true (above ++ below) = .ok p := by decide +kernel
  have hb : ∀ e ∈ entriesOf below, e.item.value.IsBound below := by
    have hq : link .standard true below = .ok
        ⟨[⟨.jump, 2⟩, ⟨.absoluteValue, 1⟩, ⟨.store, 1⟩, ⟨.stop, 0⟩], [(['c'], 1), (['d'], 2)],
          .standard⟩ := by decide +kernel
    exact (exists_link_iff.mp ⟨_, hq⟩).2
  have hn : ∀ q, ¬BoundAt below ['a'] q :=
    lookup_symbolTable_eq_none_iff.mp (by decide +kernel)
  obtain ⟨-, hprogram⟩ := @link_append above below h
  obtain ⟨-, hbelow, habove⟩ := hprogram .standard true p hp
  have he : (entriesOf above)[0]? = some ⟨.order .jump (.reference ['a']), none, none⟩ := rfl
  obtain ⟨i, hi, hr⟩ := habove 0 _ he (by rintro _ q ⟨⟩; exact hn q)
  exact ⟨h, hp, hb, hbelow hb, _, i, he, hi, hr⟩

end ManchesterBaby
