import ManchesterBaby.Proofs.Command.Assembling
import ManchesterBaby.Proofs.Command.Setup
import ManchesterBaby.Proofs.FileStore.Writing

/-! What the command that assembles a file puts out. Whatever can fail fails before the first
output. -/

namespace ManchesterBaby

theorem Category.exitCode_ne_zero (category : Category) : category.exitCode ≠ 0 := by
  cases category <;> decide

theorem Capacity.exists_program_of_listing {memory : Memory} {a : Assembler} {t : Text}
    (h : Capacity.listing memory a = .ok t) : ∃ p, a.program = some p := by
  obtain ⟨p, hp, -⟩ := bind_eq_ok_iff.mp h
  exact ⟨p, Assembler.held_eq_ok_iff.mp hp⟩

namespace Console

variable {host : Host} {c : Console} {a : Assembler} {t : Text} {s : FileStore}
  {outputs : List (Text × Text)} {target : Option Text}

theorem remark_quiet (hv : c.verbose = false) (t : Text) : c.remark host t = c := by
  rw [remark, hv]
  rfl

/-- A text for a file goes nowhere else. -/
theorem listed_quiet (hv : c.verbose = false) (hl : Capacity.listing host.memory a = .ok t)
    (hw : ∀ path ∈ target, c.files.Writable (Path.normal path)) :
    ∃ later, c.listed host a target = .ok later ∧ later.verbose = false ∧
      later.stdout = c.stdout ++ (if target.isSome then [] else host.shown t) ∧
      c.files.Wrote (target.map (·, t)).toList later.files := by
  cases target with
  | none =>
    refine ⟨c.print host t, ?_, hv, rfl, .nil c.files⟩
    rw [listed, hl]
    rfl
  | some path =>
    obtain ⟨written, hf, hwrote⟩ := (FileStore.Wrote.nil c.files).concat (hw path rfl)
      (by simp) (by simp) t
    have hx : Capacity.writeListing host.memory a c.files path = .ok written := by
      rw [Capacity.writeListing, hl]
      exact hf
    refine ⟨{ c with files := written }, ?_, hv, (List.append_nil _).symm, hwrote⟩
    rw [listed, hx]
    exact congrArg Except.ok (remark_quiet (c := { c with files := written }) hv _)

theorem symbolsWritten_quiet (hv : c.verbose = false) (hs : a.symbolReport = .ok t)
    (h : s.Wrote outputs c.files) (hw : ∀ path ∈ target, s.Writable (Path.normal path))
    (hl : ∀ output ∈ outputs, s.Writable (Path.normal output.1))
    (hne : ∀ path ∈ target, ∀ output ∈ outputs,
      s.locate (Path.normal output.1) ≠ s.locate (Path.normal path)) :
    ∃ later, c.symbolsWritten host a target = .ok later ∧ later.verbose = false ∧
      later.stdout = c.stdout ∧ s.Wrote (outputs ++ (target.map (·, t)).toList) later.files := by
  cases target with
  | none =>
    refine ⟨c, rfl, hv, rfl, ?_⟩
    rw [Option.map_none, Option.toList_none, List.append_nil]
    exact h
  | some path =>
    obtain ⟨written, hf, hwrote⟩ := h.concat (hw path rfl) (hne path rfl) hl t
    have hx : a.writeSymbols c.files path = .ok written := by
      rw [Assembler.writeSymbols, hs]
      exact hf
    refine ⟨{ c with files := written }, ?_, hv, rfl, hwrote⟩
    rw [symbolsWritten, hx]
    exact congrArg Except.ok (remark_quiet (c := { c with files := written }) hv _)

theorem concluded_quiet {p : Program} (hv : c.verbose = false) (hp : a.program = some p) :
    c.concluded host a = .ok c := by
  rw [concluded, Assembler.length, Assembler.symbols, Assembler.held_eq hp]
  exact congrArg Except.ok (remark_quiet hv _)

end Console

namespace Options

variable {host : Host} {o : Options} {env : Environment} {files : FileStore} {c : Console}
  {configuration : Configuration} {a held : Assembler} {listing : Text}

/-- The assembler that is set up has assembled the input file. -/
def Assembled (memory : Memory) (o : Options) (env : Environment) (files : FileStore)
    (held : Assembler) : Prop :=
  ∃ configuration a image, o.setUp env = .ok (configuration, a) ∧
    Capacity.assembleFile memory a files o.input = (.ok image, held)

/-- The files to be written. -/
def targets (o : Options) : List Text := o.listing.toList ++ o.symbols.toList

theorem forall_targets {P : Text → Prop} :
    (∀ path ∈ o.targets, P path) ↔ (∀ path ∈ o.listing, P path) ∧ ∀ path ∈ o.symbols, P path := by
  simp only [targets, List.mem_append, Option.mem_toList, Option.mem_def, or_imp, forall_and]

def outputs (o : Options) (listing symbols : Text) : List (Text × Text) :=
  (o.listing.map (·, listing)).toList ++ (o.symbols.map (·, symbols)).toList

/-- How an assembly of a file ends. -/
inductive AssemblyEnds (host : Host) (o : Options) (env : Environment) (files : FileStore)
    (r : Report) : Prop
  | failed (assembly : ¬∃ held t, o.Assembled host.memory env files held ∧
        Capacity.listing host.memory held = .ok t)
      (exitCode : r.exitCode ≠ 0) (stdout : r.stdout = []) (files : r.files = files)
  | delivered {held : Assembler} {listing symbols : Text}
      (assembled : o.Assembled host.memory env files held)
      (hlisting : Capacity.listing host.memory held = .ok listing)
      (hsymbols : held.symbolReport = .ok symbols) (exitCode : r.exitCode = 0)
      (stdout : r.stdout = if o.listing.isSome then [] else host.shown listing)
      (stdout_plain : escapeCharacter ∉ listing →
        r.stdout = if o.listing.isSome then [] else listing)
      (files : files.Wrote (o.outputs listing symbols) r.files)

theorem assemble_of_unassembled {f : Failure} (h : o.setUp env = .ok (configuration, a))
    (ha : Capacity.assembleFile host.memory a c.files o.input = (.error f, held)) :
    ∃ later, o.assemble host env c = .error (later, f) ∧ later.files = c.files ∧
      (c.verbose = false → later.stdout = c.stdout) := by
  let opened := c.remark host ("Assembling ".toList ++ o.shownInput ++ "...".toList)
  have hf : opened.files = c.files := Console.files_remark _
  have hassembled := Console.assembled_eq_attempt (c := opened) (hf ▸ ha)
  refine ⟨opened.log (a.fileLog opened.verbose opened.files o.input), ?_, hf, ?_⟩
  · rw [assemble_of_setUp h, hassembled]
    rfl
  · intro hv
    change opened.stdout = c.stdout
    exact congrArg Console.stdout (Console.remark_quiet hv _)

theorem assemble_of_assembled {image : Store} (h : o.setUp env = .ok (configuration, a))
    (ha : Capacity.assembleFile host.memory a c.files o.input = (.ok image, held))
    (hv : c.verbose = false) :
    o.assemble host env c =
      (c.log (a.fileLog c.verbose c.files o.input)).listed host held o.listing >>= fun c =>
        c.symbolsWritten host held o.symbols >>= fun c => c.concluded host held := by
  rw [assemble_of_setUp h, Console.remark_quiet hv, Console.assembled_eq_attempt ha]
  rfl

theorem assembleReport_of_error {f : Failure}
    (h : o.assemble host env (.start o.verbose files) = .error (c, f)) :
    o.assembleReport host env files = c.fail host "Assembly".toList f := by
  rw [assembleReport, h]

theorem assembleReport_of_fault {fault : ConfigurationFault} (h : o.setUp env = .error fault) :
    o.assembleReport host env files =
      (Console.start o.verbose files).fail host "Assembly".toList (.ofConfiguration fault) := by
  refine assembleReport_of_error ?_
  rw [assemble, Console.configured_eq_attempt, h]
  rfl

variable {p : Program}

/-- All that is put out once a program is held. -/
theorem delivered (hv : c.verbose = false) (hp : held.program = some p)
    (hl : Capacity.listing host.memory held = .ok listing)
    (hw : ∀ path ∈ o.targets, c.files.Writable (Path.normal path))
    (hd : ∀ l ∈ o.listing, ∀ s ∈ o.symbols,
      c.files.locate (Path.normal l) ≠ c.files.locate (Path.normal s)) :
    ∃ later, (c.listed host held o.listing >>= fun c =>
        c.symbolsWritten host held o.symbols >>= fun c => c.concluded host held) = .ok later ∧
      later.stdout =
        c.stdout ++ (if o.listing.isSome then [] else host.shown listing) ∧
      c.files.Wrote (o.outputs listing p.symbolReport) later.files := by
  obtain ⟨hwl, hws⟩ := forall_targets.mp hw
  have hmem : ∀ output ∈ (o.listing.map (·, listing)).toList, output.1 ∈ o.listing := by
    intro output hm
    obtain ⟨path, hpath, rfl⟩ := Option.map_eq_some_iff.mp (Option.mem_toList.mp hm)
    exact hpath
  obtain ⟨listed, hlisted, hv₁, hout₁, hfiles₁⟩ := Console.listed_quiet hv hl hwl
  obtain ⟨later, hlater, hv₂, hout₂, hfiles₂⟩ := Console.symbolsWritten_quiet hv₁
    (Assembler.symbolReport_eq hp) hfiles₁ hws (fun output hm => hwl _ (hmem output hm))
    fun path hs output hm => hd _ (hmem output hm) path hs
  refine ⟨later, ?_, hout₂.trans hout₁, hfiles₂⟩
  rw [hlisted]
  change (listed.symbolsWritten host held o.symbols >>= _) = _
  rw [hlater]
  exact Console.concluded_quiet hv₂ hp

theorem assembleReport_of_assembled (hh : host.Lawful) (hv : o.verbose = false)
    (h : o.Assembled host.memory env files held)
    (hl : Capacity.listing host.memory held = .ok listing)
    (hw : ∀ path ∈ o.targets, files.Writable (Path.normal path))
    (hd : ∀ l ∈ o.listing, ∀ s ∈ o.symbols,
      files.locate (Path.normal l) ≠ files.locate (Path.normal s)) :
    o.AssemblyEnds host env files (o.assembleReport host env files) := by
  obtain ⟨p, hp⟩ := Capacity.exists_program_of_listing hl
  have hassembled := h
  obtain ⟨configuration, a, image, hs, ha⟩ := h
  obtain ⟨later, hlater, hout, hfiles⟩ := delivered
    (c := (Console.start o.verbose files).log (a.fileLog o.verbose files o.input)) hv hp hl hw hd
  have hrun : o.assemble host env (.start o.verbose files) = .ok later := by
    rw [assemble_of_assembled (c := .start o.verbose files) hs ha hv]
    exact hlater
  rw [assembleReport, hrun]
  refine .delivered hassembled hl (Assembler.symbolReport_eq hp) rfl hout (fun he => ?_) hfiles
  rw [← hh.shown_eq_self he]
  exact hout

theorem assembleReport_ends (hh : host.Lawful) (hv : o.verbose = false)
    (hw : ∀ path ∈ o.targets, files.Writable (Path.normal path))
    (hd : ∀ l ∈ o.listing, ∀ s ∈ o.symbols,
      files.locate (Path.normal l) ≠ files.locate (Path.normal s)) :
    o.AssemblyEnds host env files (o.assembleReport host env files) := by
  by_cases h : ∃ held t, o.Assembled host.memory env files held ∧
      Capacity.listing host.memory held = .ok t
  · obtain ⟨held, listing, ha, hl⟩ := h
    exact assembleReport_of_assembled hh hv ha hl hw hd
  · have hfailed : ∀ {c : Console} {f : Failure}, c.stdout = [] → c.files = files →
        o.assembleReport host env files = c.fail host "Assembly".toList f →
        o.AssemblyEnds host env files (o.assembleReport host env files) := by
      intro c f hstdout hfiles hr
      rw [hr]
      exact .failed h f.category.exitCode_ne_zero hstdout hfiles
    cases hs : o.setUp env with
    | error fault => exact hfailed rfl rfl (assembleReport_of_fault hs)
    | ok setUp =>
      obtain ⟨configuration, a⟩ := setUp
      cases ha : Capacity.assembleFile host.memory a files o.input with | mk result held =>
      cases result with
      | error f =>
        obtain ⟨later, hrun, hfiles, hstdout⟩ :=
          assemble_of_unassembled (c := .start o.verbose files) hs ha
        exact hfailed (hstdout hv) hfiles (assembleReport_of_error hrun)
      | ok image =>
        let later := (Console.start o.verbose files).log (a.fileLog o.verbose files o.input)
        cases hl : Capacity.listing host.memory held with
        | error f =>
          refine hfailed (c := later) (f := f) rfl rfl (assembleReport_of_error ?_)
          rw [assemble_of_assembled (c := .start o.verbose files) hs ha hv]
          change (later.listed host held o.listing >>= _) = _
          rw [Console.listed_of_failure hl o.listing]
          rfl
        | ok t => exact absurd ⟨held, t, ⟨configuration, a, image, hs, ha⟩, hl⟩ h

end Options

/-- Quiet assembly puts out the listing and the symbols of the program that the input file makes,
each where it is asked for, or nothing at all. -/
theorem assembly_output {host : Host} {env : Environment} {files : FileStore} {args : List Text}
    {o : Options} (hh : host.Lawful) (hargs : host.read .assembler files args = .ok (.work o))
    (hv : o.verbose = false) (hw : ∀ path ∈ o.targets, files.Writable (Path.normal path))
    (hd : ∀ l ∈ o.listing, ∀ s ∈ o.symbols,
      files.locate (Path.normal l) ≠ files.locate (Path.normal s)) :
    ∃ r, Tool.assembler.respond host env files args = .report r ∧
      o.AssemblyEnds host env files r :=
  ⟨o.assembleReport host env files, by rw [Tool.respond, hargs],
    o.assembleReport_ends hh hv hw hd⟩

/-- The listing takes the place of the input file, and the symbols go to a new one. -/
theorem assembly_output_overInput :
    let host : Host := .standard .unlimited
    let source := ":x\nsub $x".toList
    let files : FileStore := ⟨[], [["out".toList]], [(["p.asm".toList], Utf8.encode source)]⟩
    let env : Environment := [(Configuration.fieldBitsVariable, "0b1000".toList)]
    let args := ["-l", "./p.asm", "p.asm", "--symbols=out//p.sym"].map (·.toList)
    let o : Options := ⟨"p.asm".toList, some "./p.asm".toList, some "out//p.sym".toList, false,
      none, none, none, true, false, false⟩
    host.Lawful ∧ host.read .assembler files args = .ok (.work o) ∧
      (∀ path ∈ o.targets, files.Writable (Path.normal path)) ∧
      (∀ l ∈ o.listing, ∀ s ∈ o.symbols,
        files.locate (Path.normal l) ≠ files.locate (Path.normal s)) ∧
      ∃ r, Tool.assembler.respond host env files args = .report r ∧
        o.AssemblyEnds host env files r := by
  intro host source files env args o
  have hh : host.Lawful := Host.lawful_standard .unlimited
  have hargs : host.read .assembler files args = .ok (.work o) := by rfl
  have hw : ∀ path ∈ o.targets, files.Writable (Path.normal path) := by
    intro path hm
    rcases List.mem_cons.mp hm with rfl | hm
    · exact ⟨["p.asm".toList], by decide +kernel, by decide⟩
    · rw [List.mem_singleton.mp hm]
      exact ⟨["out".toList, "p.sym".toList], by decide +kernel, by decide⟩
  have hd : ∀ l ∈ o.listing, ∀ s ∈ o.symbols,
      files.locate (Path.normal l) ≠ files.locate (Path.normal s) := by
    rintro _ ⟨⟩ _ ⟨⟩
    decide +kernel
  exact ⟨hh, hargs, hw, hd, assembly_output hh hargs rfl hw hd⟩

/-- On a host that shows no control sequences, one in the name of a tag is listed in a file and is
not printed. -/
theorem assembly_strippedListing :
    let host : Host := .standard .unlimited
    let source := ":a\x1b[0mb\nstp\n".toList
    let files : FileStore := ⟨[], [], [(["p.asm".toList], Utf8.encode source)]⟩
    let o : Options := ⟨"p.asm".toList, none, none, false, none, none, none, true, false, false⟩
    ∃ held listing, o.Assembled host.memory [] files held ∧
      Capacity.listing host.memory held = .ok listing ∧
      (∃ r, Tool.assembler.respond host [] files ["p.asm".toList] = .report r ∧ r.exitCode = 0 ∧
        r.stdout ≠ listing) ∧
      ∃ r, Tool.assembler.respond host [] files (["-l", "p.lst", "p.asm"].map (·.toList)) =
          .report r ∧
        r.exitCode = 0 ∧ r.files.read "p.lst".toList = .ok (Utf8.encode listing) := by
  intro host source files o
  let filed : Options := { o with listing := some "p.lst".toList }
  let a := Assembler.new .modern .standard true
  let p : Program := ⟨[⟨.stop, 0⟩], [("a\x1b[0mb".toList, 0)], .standard⟩
  have hargs : host.read .assembler files ["p.asm".toList] = .ok (.work o) := by rfl
  have hfiled : host.read .assembler files (["-l", "p.lst", "p.asm"].map (·.toList)) =
      .ok (.work filed) := by rfl
  have hread : files.readText o.input = .ok source := by decide +kernel
  have hp : a.programFor (Path.normal o.input) source = .ok p := by decide +kernel
  have hstore : Capacity.programStore host.memory p = .ok (.ofWords [57344]) := by decide +kernel
  have hfile := Capacity.assembleFile_of_program host.memory hread hp
  rw [hstore] at hfile
  refine ⟨{ a with program := some p }, p.listing .standard, ⟨.standard, a, _, rfl, hfile⟩,
    by decide +kernel, ⟨o.assembleReport host [] files, ?_, by decide +kernel, by decide +kernel⟩,
    filed.assembleReport host [] files, ?_, by decide +kernel, by decide +kernel⟩
  · rw [Tool.respond, hargs]
  · rw [Tool.respond, hfiled]

end ManchesterBaby
