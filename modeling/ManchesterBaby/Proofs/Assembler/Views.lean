import ManchesterBaby.Proofs.Assembler.History
import ManchesterBaby.Proofs.Link.Linking
import ManchesterBaby.Proofs.Listing
import ManchesterBaby.Proofs.Machine.WellFormed

/-! The views of a held program: its code, the machine that is built from it, and its listing. The
code is in the format that the program was assembled in and the others are in the format in force,
so they agree just if the two formats are the same. -/

namespace ManchesterBaby

namespace Store

theorem getElem?_toList (s : Store) (a : Address) : s.toList[a.val]? = some (s.get a) := by
  have ha : a.val < s.toList.length := by simp
  rw [List.getElem?_eq_getElem ha]
  rfl

theorem ofWords_toList (s : Store) : ofWords s.toList = s := by
  apply Vector.ext
  intro i hi
  simp [ofWords]

theorem forall_mem_toList {s : Store} {P : Int → Prop} (h : ∀ a : Address, P (s.get a)) :
    ∀ n ∈ s.toList, P n := by
  intro n hn
  obtain ⟨k, hk, rfl⟩ := List.mem_iff_getElem.mp hn
  exact h ⟨k, by simpa using hk⟩

theorem map_toWord_toList {s : Store} {f : WordFormat} (h : ∀ a : Address, f.IsWord (s.get a)) :
    s.toList.map f.toWord = s.toList := by
  have hw : ∀ n ∈ s.toList, f.toWord n = id n :=
    forall_mem_toList fun a => WordFormat.toWord_eq_self (h a)
  rw [List.map_congr_left hw, List.map_id]

end Store

namespace Program

def IsAssembled (p : Program) : Prop :=
  ∃ (a : Assembler) (file source : Text), a.programFor file source = .ok p

variable {p : Program}

theorem isTagName_of_isAssembled (h : p.IsAssembled) :
    ∀ name ∈ p.symbols.names, isTagName name = true := by
  obtain ⟨a, file, source, hp⟩ := h
  obtain ⟨lines, hr, hl⟩ := bind_eq_ok_iff.mp hp
  intro name hn
  obtain ⟨q, hq⟩ := ((linkedFrom_of_link hl).mem_names_iff name).mp hn
  exact isTagName_of_boundAt hr hq

theorem getElem?_store {i : Instruction} {n : Nat} (hn : n < storeSize)
    (hi : p.instructions[n]? = some i) :
    p.store.toList[n]? = some (p.format.toWord (i.encode p.format)) := by
  have hg := Store.get_ofProgram p.format p.instructions ⟨n, hn⟩
  rw [hi] at hg
  exact (p.store.getElem?_toList ⟨n, hn⟩).trans (congrArg some hg)

end Program

namespace Assembler

/-- What can be had of the views agrees. -/
structure ViewsAgree (memory : Memory) (a : Assembler) (p : Program) : Prop where
  machine : ∀ m, Capacity.machine memory a = .ok m →
    Capacity.code memory a = .ok m.store ∧ m.format = p.format
  listing : ∀ (t : Text) (code : Store),
    Capacity.listing memory a = .ok t → Capacity.code memory a = .ok code →
      (listedRows t).length = p.loaded.length ∧
        ∀ (n : Nat) (row : Text), (listedRows t)[n]? = some row →
          ∃ word, code.toList[n]? = some word ∧ wordColumn row = p.format.hexWord word

variable {memory : Memory} {a : Assembler} {p : Program}

theorem held_eq (hp : a.program = some p) : a.held = .ok p := by
  rw [held, hp]

theorem held_eq_ok_iff : a.held = .ok p ↔ a.program = some p := by
  rw [held]
  cases a.program <;> simp

theorem length_eq (hp : a.program = some p) : a.length = .ok p.length := by
  rw [length, held_eq hp, Except.map]

theorem symbolReport_eq (hp : a.program = some p) : a.symbolReport = .ok p.symbolReport := by
  rw [symbolReport, held_eq hp, Except.map]

end Assembler

namespace Capacity

variable {memory : Memory} {a : Assembler} {p : Program}

/-- A machine can be made just if the words of the format can be worked out. -/
theorem load_toList (memory : Memory) (f : WordFormat) (image : Store) :
    load memory f image.toList =
      match f.wordFault? memory with
      | some fault => .error (.size fault)
      | none => .ok (.start f (.ofWords (image.toList.map f.toWord))) := by
  have hl : image.toList.length ≤ storeSize := by simp [storeSize]
  have hne : image.toList.isEmpty = false := by simp
  rw [load, hne, if_neg Bool.false_ne_true, Machine.load_eq f hl]
  cases f.wordFault? memory <;> rfl

theorem code_eq (hp : a.program = some p) : code memory a = programStore memory p := by
  rw [code, Assembler.held_eq hp]
  rfl

theorem machine_of_programStore {image : Store} (hp : a.program = some p)
    (hs : programStore memory p = .ok image) :
    machine memory a = load memory a.format image.toList := by
  rw [machine, code_eq hp, hs]
  rfl

theorem machine_eq_ok_iff {m : Machine} (hp : a.program = some p) :
    machine memory a = .ok m ↔ (p.storeFault? memory = none ∧ a.format.wordFault? memory = none) ∧
      m = .start a.format (.ofWords (p.store.toList.map a.format.toWord)) := by
  rw [machine, code_eq hp, bind_eq_ok_iff]
  simp only [programStore_eq_ok_iff, load_toList]
  cases a.format.wordFault? memory <;> simp [eq_comm]

theorem exists_machine_iff (hp : a.program = some p) :
    (∃ m, machine memory a = .ok m) ↔
      p.storeFault? memory = none ∧ a.format.wordFault? memory = none := by
  simp only [machine_eq_ok_iff hp, exists_and_left, exists_eq, and_true]

theorem format_of_machine {m : Machine} (hp : a.program = some p) (hm : machine memory a = .ok m) :
    m.format = a.format := by
  rw [((machine_eq_ok_iff hp).mp hm).2, Machine.start]

theorem listing_eq_ok_iff {t : Text} (hp : a.program = some p) :
    listing memory a = .ok t ↔ column memory (a.format.wordDigits + 4) = .ok () ∧
      p.loaded.findSome? (·.wordFault? memory a.format) = none ∧ p.isListable = true ∧
        t = p.listing a.format := by
  rw [listing, Assembler.held_eq hp, bind_eq_ok_iff]
  simp only [Except.ok.injEq, exists_eq_left', check_bind_eq_ok_iff, require_eq_ok_iff]
  by_cases hl : p.isListable = true
  · rw [if_pos hl, pure_eq_ok_iff, @eq_comm _ (p.listing a.format)]
    simp only [hl, true_and]
  · rw [if_neg hl]
    simp [hl, throw, throwThe]

end Capacity

namespace Assembler

variable {memory : Memory} {a : Assembler} {p : Program}

/-- A row is listed only if the words of the format can be worked out. -/
theorem wordFault?_of_mem_loaded {f : WordFormat} {i : Instruction} (hi : i ∈ p.loaded)
    (h : p.loaded.findSome? (·.wordFault? memory f) = none) : f.wordFault? memory = none :=
  Instruction.wordFault?_eq_none_iff.mp (List.findSome?_eq_none_iff.mp h i hi)

theorem viewsAgree_iff_of_isAssembled (hp : a.program = some p) (ha : p.IsAssembled) :
    a.ViewsAgree memory p ↔ a.format = p.format ∨ ¬∃ m, Capacity.machine memory a = .ok m := by
  have hn := Program.isTagName_of_isAssembled ha
  constructor
  · intro h
    rw [or_iff_not_imp_right, not_not]
    rintro ⟨m, hm⟩
    rw [← (h.machine m hm).2, Capacity.format_of_machine hp hm]
  · intro hf
    constructor
    · intro m hm
      have hf := hf.resolve_right (not_not.mpr ⟨m, hm⟩)
      have hw : ∀ n : Address, a.format.IsWord (p.store.get n) := fun n => hf ▸ p.isWord_store n
      obtain ⟨⟨hs, -⟩, rfl⟩ := (Capacity.machine_eq_ok_iff hp).mp hm
      rw [Capacity.code_eq hp, Capacity.programStore_eq_ok_iff, Store.map_toWord_toList hw,
        Store.ofWords_toList]
      exact ⟨⟨hs, rfl⟩, hf⟩
    · intro t code ht hc
      rw [Capacity.code_eq hp, Capacity.programStore_eq_ok_iff] at hc
      obtain ⟨hs, rfl⟩ := hc
      obtain ⟨-, hloaded, -, rfl⟩ := (Capacity.listing_eq_ok_iff hp).mp ht
      refine ⟨Program.length_listedRows hn _, ?_⟩
      intro n row hr
      obtain ⟨i, hi, hlt, hrow⟩ := Program.wordColumn_of_listedRows hn hr
      have hmem : i ∈ p.loaded :=
        List.mem_iff_getElem?.mpr ⟨n, Program.getElem?_loaded_eq_some_iff.mpr ⟨hlt, hi⟩⟩
      have hm := (Capacity.exists_machine_iff hp).mpr ⟨hs, wordFault?_of_mem_loaded hmem hloaded⟩
      exact ⟨_, Program.getElem?_store hlt hi, hf.resolve_right (not_not.mpr hm) ▸ hrow⟩

def InFormat (a : Assembler) : Prop := ∀ p ∈ a.program, p.format = a.format

theorem format_of_programFor {file source : Text} (h : a.programFor file source = .ok p) :
    p.format = a.format := by
  obtain ⟨lines, -, hl⟩ := bind_eq_ok_iff.mp h
  exact (link_eq_ok_iff.mp hl).2.1

theorem exists_programFor_of_after {c : Call} (hs : c.source?.isSome)
    (hp : (a.after memory c).program = some p) :
    ∃ file source, a.programFor file source = .ok p := by
  obtain ⟨s, hc⟩ := Option.isSome_iff_exists.mp hs
  rw [program_after, hc] at hp
  exact ⟨s.1, s.2, toOption_eq_some_iff.mp hp⟩

theorem program_eq_of_after {c : Call} (hs : ¬c.source?.isSome)
    (hp : (a.after memory c).program = some p) : a.program = some p := by
  rw [program_after, Option.not_isSome_iff_eq_none.mp hs] at hp
  exact hp

theorem isAssembled_after {c : Call} (h : c.source?.isSome ∨ ∀ q ∈ a.program, q.IsAssembled) :
    ∀ q ∈ (a.after memory c).program, q.IsAssembled := by
  intro q hq
  by_cases hs : c.source?.isSome
  · exact ⟨a, exists_programFor_of_after hs hq⟩
  · exact h.resolve_left hs q (program_eq_of_after hs hq)

theorem isAssembled_afterAll (h : ∀ q ∈ a.program, q.IsAssembled) (calls : List Call) :
    ∀ q ∈ (a.afterAll memory calls).program, q.IsAssembled := by
  induction calls generalizing a with
  | nil => exact h
  | cons c calls ih => exact ih (isAssembled_after (.inr h))

theorem format_after {c : Call} (hc : ∀ f, c ≠ .setFormat f) :
    (a.after memory c).format = a.format := by
  cases c with
  | assemble file source => exact Capacity.assemble_snd_format memory a file source
  | assembleFile files path =>
    rw [after]
    cases h : files.readText path with
    | error f => rw [Capacity.assembleFile_of_unread h]
    | ok source =>
      rw [Capacity.assembleFile_of_readText h]
      exact Capacity.assemble_snd_format memory a _ source
  | setFormat f => exact absurd rfl (hc f)
  | report | setDialect | setCheckSize => rfl

theorem inFormat_after {c : Call} (hc : ∀ f, c ≠ .setFormat f)
    (h : c.source?.isSome ∨ a.InFormat) : (a.after memory c).InFormat := by
  intro q hq
  rw [format_after hc]
  by_cases hs : c.source?.isSome
  · obtain ⟨file, source, hp⟩ := exists_programFor_of_after hs hq
    exact format_of_programFor hp
  · exact h.resolve_left hs q (program_eq_of_after hs hq)

theorem inFormat_afterAll {calls : List Call} (hc : ∀ f, .setFormat f ∉ calls)
    (h : a.InFormat) : (a.afterAll memory calls).InFormat := by
  induction calls generalizing a with
  | nil => exact h
  | cons c calls ih =>
    have hn : ∀ f, c ≠ .setFormat f := fun f he => hc f (he ▸ List.mem_cons_self)
    exact ih (fun f hm => hc f (List.mem_cons_of_mem _ hm)) (inFormat_after hn (.inr h))

/-- The views agree if no format has been assigned since a source was assembled. -/
theorem viewsAgree_of_setFormat_notMem {c : Call} {later : List Call} (hs : c.source?.isSome)
    (hl : ∀ f, .setFormat f ∉ later)
    (hp : ((a.after memory c).afterAll memory later).program = some p) :
    ((a.after memory c).afterAll memory later).ViewsAgree memory p := by
  have hc : ∀ f, c ≠ .setFormat f := by
    rintro f rfl
    cases hs
  have hi : ∀ q ∈ ((a.after memory c).afterAll memory later).program, q.IsAssembled :=
    isAssembled_afterAll (isAssembled_after (.inl hs)) later
  have hf : ((a.after memory c).afterAll memory later).InFormat :=
    inFormat_afterAll hl (inFormat_after hc (.inl hs))
  exact (viewsAgree_iff_of_isAssembled hp (hi p hp)).mpr (.inl (hf p hp).symm)

/-- At the end of any history the views agree just if the format in force is the one that the
program was assembled in, or no machine can be had. There is one unless the words of the program
or those of the format in force cannot be worked out. -/
theorem viewsAgree_afterAll_iff {dialect : Dialect} {format : WordFormat} {checkSize : Bool}
    {calls : List Call}
    (hp : ((new dialect format checkSize).afterAll memory calls).program = some p) :
    let a := (new dialect format checkSize).afterAll memory calls
    (a.ViewsAgree memory p ↔ a.format = p.format ∨ ¬∃ m, Capacity.machine memory a = .ok m) ∧
      ((∃ m, Capacity.machine memory a = .ok m) ↔
        p.storeFault? memory = none ∧ a.format.wordFault? memory = none) := by
  intro a
  have hn : ∀ q ∈ (new dialect format checkSize).program, q.IsAssembled := fun q hq => by cases hq
  exact ⟨viewsAgree_iff_of_isAssembled hp (isAssembled_afterAll hn calls p hp),
    Capacity.exists_machine_iff hp⟩

/-- The format goes to another and comes back. -/
theorem viewsAgree_afterAll_iff_restored :
    let f : WordFormat := ⟨8, 8, by decide, by decide⟩
    let a := (new .modern f true).afterAll .unlimited
      [.assemble [] "ldn $x\n:x\nabs 0d-1".toList, .setFormat .standard, .report, .setFormat f]
    let p : Program := ⟨[⟨.negate, 1⟩, ⟨.absoluteValue, -1⟩], [(['x'], 1)], f⟩
    a.program = some p ∧ Capacity.machine .unlimited a = .ok (.start f (.ofWords [65, -1])) ∧
      a.ViewsAgree .unlimited p := by
  intro f a p
  have hp : a.program = some p := by decide +kernel
  exact ⟨hp, by decide +kernel, (viewsAgree_afterAll_iff hp).1.mpr (.inl rfl)⟩

/-- In eight bits the machine jumps where the code loads, and the listing has a third word. -/
theorem setFormat_splits_views :
    let a := (new .modern .standard true).afterAll .unlimited
      [.assemble [] "ldn 0d5".toList, .setFormat ⟨8, 8, by decide, by decide⟩]
    let p : Program := ⟨[⟨.negate, 5⟩], [], .standard⟩
    a.program = some p ∧ Capacity.code .unlimited a = .ok (.ofWords [16389]) ∧
      Capacity.machine .unlimited a = .ok (.start a.format (.ofWords [5])) ∧
      (Capacity.listing .unlimited a).map (fun t => (listedRows t).map wordColumn) =
        .ok ["0x45".toList] ∧
      ¬a.ViewsAgree .unlimited p := by
  intro a p
  have hp : a.program = some p := by decide +kernel
  have hm : Capacity.machine .unlimited a = .ok (.start a.format (.ofWords [5])) := by
    decide +kernel
  refine ⟨hp, by decide +kernel, hm, by decide +kernel, fun h => ?_⟩
  have hf : a.format = p.format := (h.machine _ hm).2
  exact absurd hf (by decide)

end Assembler

end ManchesterBaby
