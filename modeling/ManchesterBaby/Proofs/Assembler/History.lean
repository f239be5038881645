import ManchesterBaby.Proofs.Assembler.Capacity

/-! Histories of an assembler: calls in any order, with settings assigned between them and files
that may be others each time. A call that has a source drops what was held, and all others leave
it. So a failed assembly leaves nothing behind, unless its file could not be read or its program
was held before its words turned out to be too large. -/

namespace ManchesterBaby

namespace Assembler

inductive Call
  | assemble (file source : Text)
  | assembleFile (files : FileStore) (path : Text)
  | report
  | setDialect (dialect : Dialect)
  | setCheckSize (checkSize : Bool)
  | setFormat (format : WordFormat)

section

variable (memory : Memory)

def after (a : Assembler) : Call → Assembler
  | .assemble file source => (Capacity.assemble memory a file source).2
  | .assembleFile files path => (Capacity.assembleFile memory a files path).2
  | .report => a
  | .setDialect dialect => { a with dialect := dialect }
  | .setCheckSize checkSize => { a with checkSize := checkSize }
  | .setFormat format => { a with format := format }

def afterAll (a : Assembler) (calls : List Call) : Assembler := calls.foldl (after memory) a

def Fails (a : Assembler) : Call → Prop
  | .assemble file source => ∃ f, (Capacity.assemble memory a file source).1 = .error f
  | .assembleFile files path => ∃ f, (Capacity.assembleFile memory a files path).1 = .error f
  | _ => False

def Succeeds (a : Assembler) : Call → Prop
  | .assemble file source => ∃ store, (Capacity.assemble memory a file source).1 = .ok store
  | .assembleFile files path => ∃ store, (Capacity.assembleFile memory a files path).1 = .ok store
  | _ => False

def NoneSucceeds (a : Assembler) : List Call → Prop
  | [] => True
  | c :: calls => ¬a.Succeeds memory c ∧ (a.after memory c).NoneSucceeds calls

structure Refuses (a : Assembler) (f : Failure) : Prop where
  code : Capacity.code memory a = .error f
  symbols : a.symbols = .error f
  instructions : a.instructions = .error f
  length : a.length = .error f
  listing : Capacity.listing memory a = .error f
  symbolReport : a.symbolReport = .error f
  machine : Capacity.machine memory a = .error f

/-- The source makes a program whose words cannot be worked out. -/
def Oversized (a : Assembler) (file source : Text) : Prop :=
  ∃ p fault, a.programFor file source = .ok p ∧ p.storeFault? memory = some fault

/-- What a call assembles, with its name. A file that cannot be read gives none. -/
def Call.source? : Call → Option (Text × Text)
  | .assemble file source => some (file, source)
  | .assembleFile files path => (files.readText path).toOption.map (Path.normal path, ·)
  | _ => none

/-- The last source that the calls assemble, with the assembler that it is given to. -/
def lastSource? (a : Assembler) : List Call → Option (Assembler × Text × Text)
  | [] => none
  | c :: calls => ((a.after memory c).lastSource? calls).or (c.source?.map (a, ·))

end

def nothingHeld : Failure := .diagnostic (Fault.unplaced .nothingAssembled)

variable {memory : Memory} {a b : Assembler} {c : Call} {file source : Text}

theorem refuses_iff : a.Refuses memory nothingHeld ↔ a.program = none := by
  have hh : a.held = .error nothingHeld ↔ a.program = none := by
    rw [held]
    cases a.program <;> simp [nothingHeld]
  constructor
  · intro h
    exact hh.mp (map_eq_error_iff.mp h.symbols)
  · intro h
    have he := hh.mpr h
    constructor <;> simp only [Capacity.code, symbols, instructions, length, Capacity.listing,
      symbolReport, Capacity.machine, he] <;> rfl

/-- The held program is the one that the source of the last call makes, if that has one. -/
theorem program_after (a : Assembler) (c : Call) :
    (a.after memory c).program =
      match c.source? with
      | some (file, source) => (a.programFor file source).toOption
      | none => a.program := by
  cases c with
  | assemble file source => exact Capacity.assemble_snd_program memory a file source
  | assembleFile files path =>
    rw [after, Call.source?]
    cases h : files.readText path with
    | error f => rw [Capacity.assembleFile_of_unread h]; rfl
    | ok source =>
      rw [Capacity.assembleFile_of_readText h]
      exact Capacity.assemble_snd_program memory a _ source
  | report | setDialect | setCheckSize | setFormat => rfl

theorem program_afterAll (a : Assembler) (calls : List Call) :
    (a.afterAll memory calls).program =
      match a.lastSource? memory calls with
      | some (b, file, source) => (b.programFor file source).toOption
      | none => a.program := by
  induction calls generalizing a with
  | nil => rfl
  | cons c calls ih =>
    have hlater : (a.afterAll memory (c :: calls)).program = _ := ih (a.after memory c)
    rw [hlater, lastSource?]
    cases (a.after memory c).lastSource? memory calls with
    | some last => rfl
    | none =>
      rw [Option.none_or, program_after]
      cases c.source? <;> rfl

theorem succeeds_iff : a.Succeeds memory c ↔
    ∃ s ∈ c.source?, ∃ image, (Capacity.assemble memory a s.1 s.2).1 = .ok image := by
  cases c with
  | assemble file source => simp [Succeeds, Call.source?]
  | assembleFile files path =>
    rw [Succeeds, Call.source?]
    cases h : files.readText path with
    | error f => simp [Capacity.assembleFile_of_unread h, Except.toOption]
    | ok source => simp [Capacity.assembleFile_of_readText h, Except.toOption]
  | report | setDialect | setCheckSize | setFormat => simp [Succeeds, Call.source?]

theorem not_succeeds_of_fails (h : a.Fails memory c) : ¬a.Succeeds memory c := by
  cases c with
  | assemble | assembleFile =>
    obtain ⟨e, he⟩ := h
    rintro ⟨store, hs⟩
    rw [he] at hs
    cases hs
  | report | setDialect | setCheckSize | setFormat => exact False.elim h

/-- While no assembly succeeds, the last source is none that has been assembled. -/
theorem not_assembled_of_lastSource? {calls : List Call} (h : a.NoneSucceeds memory calls)
    (hl : a.lastSource? memory calls = some (b, file, source)) :
    ¬∃ image, (Capacity.assemble memory b file source).1 = .ok image := by
  induction calls generalizing a with
  | nil => cases hl
  | cons c calls ih =>
    rw [lastSource?, Option.or_eq_some_iff] at hl
    rcases hl with hl | ⟨-, hl⟩
    · exact ih h.2 hl
    · obtain ⟨s, hs, he⟩ := Option.map_eq_some_iff.mp hl
      cases he
      exact fun himage => h.1 (succeeds_iff.mpr ⟨_, hs, himage⟩)

theorem programFor_toOption_eq_none_iff
    (h : ¬∃ image, (Capacity.assemble memory b file source).1 = .ok image) :
    (b.programFor file source).toOption = none ↔ ¬b.Oversized memory file source := by
  cases hp : b.programFor file source with
  | error d => simp [Oversized, hp, Except.toOption]
  | ok p =>
    have hfault : p.storeFault? memory ≠ none := fun hn =>
      h ⟨p.store, Capacity.assemble_fst_eq_ok_iff.mpr
        ⟨p, hp, Capacity.programStore_eq_ok_iff.mpr ⟨hn, rfl⟩⟩⟩
    obtain ⟨fault, hf⟩ := Option.ne_none_iff_exists'.mp hfault
    simp [Oversized, hp, hf, Except.toOption]

/-- After a failure, and as long as no assembly succeeds, every result is refused unless there is a
program. It can be an earlier one if no call has had a source, and otherwise the last source makes
it, and its words are too large. -/
theorem refuses_after_failure_iff {later : List Call} (h : a.Fails memory c)
    (hl : (a.after memory c).NoneSucceeds memory later) :
    (a.afterAll memory (c :: later)).Refuses memory nothingHeld ↔
      match a.lastSource? memory (c :: later) with
      | some (b, file, source) => ¬b.Oversized memory file source
      | none => a.program = none := by
  have hn : a.NoneSucceeds memory (c :: later) := ⟨not_succeeds_of_fails h, hl⟩
  rw [refuses_iff, program_afterAll]
  cases hs : a.lastSource? memory (c :: later) with
  | none => exact Iff.rfl
  | some last => exact programFor_toOption_eq_none_iff (not_assembled_of_lastSource? hn hs)

/-- A reference that is not bound, in a file that can be read, after an assembly that succeeded. -/
theorem refuses_after_failure_iff_unbound :
    let a := (new .modern .standard true).after .unlimited (.assemble [] "stp".toList)
    let files : FileStore := ⟨[], [], [(["in".toList], Utf8.encode "jmp $x".toList)]⟩
    let c := Call.assembleFile files "in".toList
    let later := [.setFormat ⟨8, 8, by decide, by decide⟩, .report]
    a.program.isSome ∧ a.Fails .unlimited c ∧ (a.after .unlimited c).NoneSucceeds .unlimited later ∧
      (a.afterAll .unlimited (c :: later)).Refuses .unlimited nothingHeld := by
  intro a files c later
  let d : Diagnostic := ⟨.unknownTag ['x'] [], some ⟨"in".toList, 1, 1⟩, some "jmp $x".toList⟩
  have hf : a.Fails .unlimited c := ⟨.diagnostic d, by decide +kernel⟩
  have hl : (a.after .unlimited c).NoneSucceeds .unlimited later := ⟨id, id, trivial⟩
  have hs : c.source? = some ("in".toList, "jmp $x".toList) := by decide +kernel
  have hlast : a.lastSource? .unlimited (c :: later) = some (a, "in".toList, "jmp $x".toList) := by
    rw [lastSource?, hs]
    rfl
  have hd : a.programFor "in".toList "jmp $x".toList = .error d := by decide +kernel
  have hrefuses := refuses_after_failure_iff hf hl
  rw [hlast] at hrefuses
  refine ⟨by decide +kernel, hf, hl, hrefuses.mpr ?_⟩
  rintro ⟨p, fault, hp, -⟩
  rw [hd] at hp
  cases hp

/-- A program of which no word can be worked out is held all the same. -/
example :
    let a := new .modern ⟨10 ^ 25, 16, by decide, by decide⟩ true
    a.Fails .unlimited (.assemble [] "stp".toList) ∧
      (a.after .unlimited (.assemble [] "stp".toList)).length = .ok 1 :=
  ⟨⟨.size .tooManyDigits, by decide +kernel⟩, by decide +kernel⟩

/-- The earlier program stays when a file is missing. -/
theorem unread_file_keeps_program :
    let a := (new .modern .standard true).after .unlimited (.assemble [] "stp".toList)
    let c := Call.assembleFile ⟨[], [], []⟩ "missing".toList
    a.Fails .unlimited c ∧
      Capacity.code .unlimited (a.after .unlimited c) = .ok (.ofWords [57344]) ∧
      ¬(a.after .unlimited c).Refuses .unlimited nothingHeld := by
  intro a c
  have hc : Capacity.code .unlimited (a.after .unlimited c) = .ok (.ofWords [57344]) := by
    decide +kernel
  refine ⟨⟨.file .missing "missing".toList, by decide +kernel⟩, hc, ?_⟩
  intro h
  rw [h.code] at hc
  cases hc

end Assembler

end ManchesterBaby
