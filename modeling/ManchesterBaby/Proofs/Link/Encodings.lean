import ManchesterBaby.Proofs.Assembler.Capacity
import ManchesterBaby.Proofs.Assembler.Views

/-! The words of a linked program, which are worked out entry by entry, instruction by instruction,
for the store and for the machine. All of them are the same words. -/

namespace ManchesterBaby

variable {memory : Memory} {f : WordFormat} {checkSize : Bool} {lines : List Line} {p : Program}

namespace Program

theorem isWord_of_mem_words {n : Int} (h : n ∈ p.words) : p.format.IsWord n := by
  obtain ⟨i, -, rfl⟩ := List.mem_map.mp h
  exact p.format.isWord_toWord _

theorem store_eq_ofWords (p : Program) : p.store = .ofWords p.words := rfl

/-- The ways to the words of the entries lead to the same ones. -/
structure EncodedAlike (p : Program) (lines : List Line) : Prop where
  resolved : List.Forall₂ (fun e word => resolveWord p.format p.symbols e = .ok word)
    (entriesOf lines) p.words
  stored : ∀ a : Address, p.store.get a = p.words.getD a 0
  loaded : Machine.load p.format p.store.toList = .ok (.start p.format p.store)
  loaded_words : (entriesOf lines).length ≤ storeSize →
    Machine.load p.format p.words = .ok (.start p.format p.store)

/-- So do the ways that end where a word is too large to be worked out, and they end alike. -/
structure HeldAlike (memory : Memory) (p : Program) (lines : List Line) : Prop where
  resolved : (entriesOf lines).mapM (Capacity.resolveWord memory p.format p.symbols) =
    Capacity.words memory p
  stored : Capacity.programStore memory p = (Capacity.words memory p).map .ofWords
  words : p.format.wordFault? memory = none → Capacity.words memory p = .ok p.words
  loaded : p.format.wordFault? memory = none →
    Capacity.load memory p.format p.store.toList = .ok (.start p.format p.store)
  loaded_words : p.format.wordFault? memory = none → (entriesOf lines).length ≤ storeSize →
    Capacity.load memory p.format p.words = .ok (.start p.format p.store)

end Program

theorem resolveWord_words (h : link f checkSize lines = .ok p) :
    (entriesOf lines).mapM (resolveWord f p.symbols) = .ok p.words := by
  obtain ⟨-, rfl, hs, hm⟩ := link_eq_ok_iff_mapM.mp h
  rw [← hs] at hm
  change (entriesOf lines).mapM (fun e => (resolveEntry p.symbols e).map fun i =>
    p.format.toWord (i.encode p.format)) = _
  rw [← map_mapM, hm]
  rfl

theorem link_encodedAlike (h : link f checkSize lines = .ok p) : p.EncodedAlike lines := by
  obtain ⟨-, rfl, -, -⟩ := link_eq_ok_iff_mapM.mp h
  have hresolved := mapM_eq_ok_iff.mp (resolveWord_words h)
  have hstored : p.store.toList.map p.format.toWord = p.store.toList :=
    Store.map_toWord_toList p.isWord_store
  refine ⟨hresolved, fun a => ?_, ?_, fun hle => ?_⟩
  · rw [p.store_eq_ofWords, Store.get_ofWords]
  · rw [Machine.load_eq _ (by simp [storeSize]), hstored, Store.ofWords_toList]
  · have hwords : p.words.map p.format.toWord = p.words.map id :=
      List.map_congr_left fun n hn => WordFormat.toWord_eq_self (Program.isWord_of_mem_words hn)
    rw [Machine.load_eq _ (hresolved.length_eq ▸ hle), hwords, List.map_id, p.store_eq_ofWords]

namespace Capacity

theorem word_of_wordFault? (h : f.wordFault? memory = none) (i : Instruction) :
    word memory f i = .ok (f.toWord (i.encode f)) := by
  rw [word, Instruction.wordFault?_eq_none h]
  rfl

theorem words_of_wordFault? (h : p.format.wordFault? memory = none) :
    words memory p = .ok p.words := by
  rw [words, mapM_eq_ok_iff, Program.words, List.forall₂_map_right_iff, List.forall₂_same]
  exact fun i _ => word_of_wordFault? h i

/-- The store is worked out just if all the words are, those beyond its end included. -/
theorem programStore_eq_map_words (memory : Memory) (p : Program) :
    programStore memory p = (words memory p).map .ofWords := by
  cases hw : p.format.wordFault? memory with
  | none =>
    rw [programStore_of_wordFault? hw, words_of_wordFault? hw]
    rfl
  | some fault =>
    obtain ⟨instructions, symbols, f⟩ := p
    cases instructions with
    | nil => rfl
    | cons i rest =>
      obtain ⟨fault, hi⟩ : ∃ fault, i.wordFault? memory f = some fault :=
        Option.ne_none_iff_exists'.mp fun hn => by
          have hf : f.wordFault? memory = none := Instruction.wordFault?_eq_none_iff.mp hn
          rw [hf] at hw
          cases hw
      have hword : word memory f i = .error (.size fault) := by
        rw [word, hi]
        rfl
      rw [programStore_eq, Program.storeFault?, words, mapM_cons_error hword, List.head?_cons,
        Option.bind_some, hi]
      rfl

end Capacity

theorem link_heldAlike (memory : Memory) (h : link f checkSize lines = .ok p) :
    p.HeldAlike memory lines := by
  have hencoded := link_encodedAlike h
  obtain ⟨-, rfl, hs, hm⟩ := link_eq_ok_iff_mapM.mp h
  rw [← hs] at hm
  refine ⟨?_, Capacity.programStore_eq_map_words memory p, Capacity.words_of_wordFault?,
    fun hw => ?_, fun hw hle => ?_⟩
  · refine mapM_eq_mapM ((mapM_eq_ok_iff.mp hm).imp fun e i hi => ?_)
    rw [Capacity.resolveWord, hi]
    rfl
  · rw [Capacity.load_of_wordFault? hw, hencoded.loaded]
    rfl
  · rw [Capacity.load_of_wordFault? hw, hencoded.loaded_words hle]
    rfl

/-- Of a linked program the entries, the instructions, the store and the machine that is loaded have
the same words. Without a check of its size the same program is linked. -/
theorem encodings_of_link (h : link f checkSize lines = .ok p) :
    p.format = f ∧ p.EncodedAlike lines ∧ (∀ memory, p.HeldAlike memory lines) ∧
      link f false lines = .ok p := by
  obtain ⟨-, hp⟩ := link_eq_ok_iff_mapM.mp h
  exact ⟨hp.1, link_encodedAlike h, fun memory => link_heldAlike memory h,
    link_eq_ok_iff_mapM.mpr ⟨by simp, hp⟩⟩

/-- Words of eight bits, data that does not fit one, and a jump to an entry that is beyond the end
of the store. -/
theorem encodings_of_link_longProgram :
    let f : WordFormat := ⟨8, 8, by decide, by decide⟩
    let place (s : Statement) : Line := ⟨s, none, none⟩
    let lines := (Statement.entry (.order .jump (.reference ['x'])) ::
      List.replicate 32 (Statement.entry (.data (.literal 300))) ++
        [Statement.tag ['x'], Statement.entry (.order .store (.reference ['x']))]).map place
    let p : Program := ⟨⟨.jump, 33⟩ :: List.replicate 32 ⟨.absoluteValue, 300⟩ ++ [⟨.store, 33⟩],
      [(['x'], 33)], f⟩
    link f false lines = .ok p ∧ p.words = 1 :: List.replicate 32 44 ++ [-63] ∧
      p.EncodedAlike lines ∧ ∀ memory, p.HeldAlike memory lines := by
  intro f place lines p
  have h : link f false lines = .ok p := by decide +kernel
  obtain ⟨-, hencoded, hheld, -⟩ := encodings_of_link h
  exact ⟨h, by decide +kernel, hencoded, hheld⟩

end ManchesterBaby
