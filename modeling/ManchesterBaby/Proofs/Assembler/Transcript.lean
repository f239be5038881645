import ManchesterBaby.Proofs.Assembler.History

/-! Transcripts: what an assembler answers to calls and queries that follow one another. An assembly
depends on the settings alone, so from there on the transcripts of two assemblers with the same
settings are the same, and queries leave no trace in the answers that follow. -/

namespace ManchesterBaby

namespace Assembler

inductive Query
  | code
  | symbols
  | instructions
  | length
  | listing
  | symbolReport
  | machine
  | writeListing (files : FileStore) (path : Text)
  | writeSymbols (files : FileStore) (path : Text)

inductive Action
  | call (c : Call)
  | ask (q : Query)

inductive Answer
  | done
  | store (r : Except Failure Store)
  | symbols (r : Except Failure SymbolTable)
  | instructions (r : Except Failure (List Instruction))
  | length (r : Except Failure Nat)
  | text (r : Except Failure Text)
  | machine (r : Except Failure Machine)
  | files (r : Except Failure FileStore)

section

variable (memory : Memory)

def answer (a : Assembler) : Query → Answer
  | .code => .store (Capacity.code memory a)
  | .symbols => .symbols a.symbols
  | .instructions => .instructions a.instructions
  | .length => .length a.length
  | .listing => .text (Capacity.listing memory a)
  | .symbolReport => .text a.symbolReport
  | .machine => .machine (Capacity.machine memory a)
  | .writeListing files path => .files (Capacity.writeListing memory a files path)
  | .writeSymbols files path => .files (a.writeSymbols files path)

def perform (a : Assembler) : Action → Answer × Assembler
  | .call (.assemble file source) =>
    let (result, a) := Capacity.assemble memory a file source
    (.store result, a)
  | .call (.assembleFile files path) =>
    let (result, a) := Capacity.assembleFile memory a files path
    (.store result, a)
  | .call c => (.done, a.after memory c)
  | .ask q => (a.answer memory q, a)

def transcript (a : Assembler) : List Action → List (Action × Answer)
  | [] => []
  | action :: rest =>
    (action, (a.perform memory action).1) :: (a.perform memory action).2.transcript rest

end

variable {memory : Memory} {x y : Assembler}

/-- In a transcript a call leaves what it leaves in a history. -/
theorem perform_call_snd (a : Assembler) (c : Call) :
    (a.perform memory (.call c)).2 = a.after memory c := by
  cases c <;> rfl

/-- Whatever the two have been through, they may differ in what they hold and in nothing else. -/
structure SameSettings (x y : Assembler) : Prop where
  dialect : x.dialect = y.dialect
  format : x.format = y.format
  checkSize : x.checkSize = y.checkSize

theorem SameSettings.withProgram_eq (h : x.SameSettings y) (p : Option Program) :
    { x with program := p } = { y with program := p } := by
  rw [h.dialect, h.format, h.checkSize]

theorem SameSettings.assemble_eq (h : x.SameSettings y) (file source : Text) :
    Capacity.assemble memory x file source = Capacity.assemble memory y file source := by
  have hp : x.programFor file source = y.programFor file source := by
    rw [programFor, programFor, h.dialect, h.format, h.checkSize]
  rw [Capacity.assemble_eq, Capacity.assemble_eq, hp, h.withProgram_eq]

/-- Queries that are left out are missed in no other answer. -/
theorem transcript_filter (a : Assembler) {keep : Action → Bool}
    (hk : ∀ c, keep (.call c) = true) (actions : List Action) :
    (a.transcript memory actions).filter (fun entry => keep entry.1) =
      a.transcript memory (actions.filter keep) := by
  induction actions generalizing a with
  | nil => rfl
  | cons action rest ih =>
    rw [transcript, List.filter_cons, List.filter_cons, ih]
    by_cases hq : keep action = true
    · rw [if_pos hq, if_pos hq, transcript]
    · have hs : (a.perform memory action).2 = a := by
        cases action with
        | call c => exact absurd (hk c) hq
        | ask q => rfl
      rw [if_neg hq, if_neg hq, hs]

/-- An assembly and all that follows it are the same for two assemblers with the same settings,
whatever they hold, and queries change no other answer. -/
theorem transcript_assemble (h : x.SameSettings y) :
    (∀ (file source : Text) (later : List Action),
      x.transcript memory (.call (.assemble file source) :: later) =
        y.transcript memory (.call (.assemble file source) :: later)) ∧
    ∀ keep : Action → Bool, (∀ c, keep (.call c) = true) → ∀ actions,
      (x.transcript memory actions).filter (fun entry => keep entry.1) =
        x.transcript memory (actions.filter keep) := by
  refine ⟨?_, fun keep hk => x.transcript_filter hk⟩
  intro file source later
  have hp : x.perform memory (.call (.assemble file source)) =
      y.perform memory (.call (.assemble file source)) := by
    rw [perform, perform, h.assemble_eq]
  rw [transcript, transcript, hp]

/-- One holds a program of eight bits in the historical notation, with tags, and has had its
settings changed since. The last assembly of the other failed. -/
theorem transcript_assemble_otherHistories :
    let x := (new .historical ⟨8, 8, by decide, by decide⟩ false).afterAll .unlimited
      [.assemble [] ":y\nStop".toList, .report, .setDialect .modern, .setFormat .standard,
        .setCheckSize true]
    let y := (new .modern .standard true).afterAll .unlimited
      [.assemble [] "jmp $y".toList]
    let keep : Action → Bool := fun action => action matches .call _
    x.program ≠ y.program ∧ x.SameSettings y ∧
      (∀ (file source : Text) (later : List Action),
        x.transcript .unlimited (.call (.assemble file source) :: later) =
          y.transcript .unlimited (.call (.assemble file source) :: later)) ∧
      ∀ actions, (x.transcript .unlimited actions).filter (fun entry => keep entry.1) =
        x.transcript .unlimited (actions.filter keep) := by
  intro x y keep
  have h : x.SameSettings y := ⟨by decide +kernel, by decide +kernel, by decide +kernel⟩
  obtain ⟨hassemble, hqueries⟩ := transcript_assemble h
  exact ⟨by decide +kernel, h, hassemble, hqueries keep fun _ => rfl⟩

end Assembler

end ManchesterBaby
