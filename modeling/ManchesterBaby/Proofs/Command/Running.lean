import ManchesterBaby.Proofs.Assembler.Views
import ManchesterBaby.Proofs.Command.Setup
import ManchesterBaby.Proofs.Machine.Display

/-! How the command that runs a file ends. Nothing is printed before the machine has halted. -/

namespace ManchesterBaby

variable {host : Host}

theorem Category.report_quiet (activity : Text) (category : Category) (text : Text) :
    category.report host activity false text =
      host.shown (category.heading activity ++ text ++ ['\n']) := by
  rw [report, Bool.false_and]
  exact List.append_nil _

namespace Capacity

variable {memory : Memory} {a : Assembler} {p : Program} {image : Store}

theorem category_of_machine {failure : Failure} (hp : a.program = some p)
    (h : machine memory a = .error failure) : failure.category = .internal := by
  rw [machine, code_eq hp] at h
  rcases bind_eq_error_iff.mp h with h | ⟨store, -, h⟩
  · rcases programStore_outcome memory p with hs | ⟨f, hs, hf⟩
    · rw [hs] at h
      cases h
    · rw [hs] at h
      cases h
      exact hf
  · rw [load_toList] at h
    cases hw : a.format.wordFault? memory with
    | none =>
      rw [hw] at h
      cases h
    | some fault =>
      rw [hw] at h
      cases h
      rfl

/-- A machine that is loaded holds words of its format, and so it does when it has run. -/
theorem format_of_run {f : WordFormat} {m final : Machine} {halt : Halt} {budget : Int}
    (hm : load memory f image.toList = .ok m) (hr : m.run budget = (final, halt)) :
    final.format = f := by
  rw [load_toList] at hm
  cases hw : f.wordFault? memory with
  | some fault =>
    rw [hw] at hm
    cases hm
  | none =>
    rw [hw] at hm
    cases hm
    have hwords : ∀ n ∈ image.toList.map f.toWord, f.IsWord n := by
      rw [List.forall_mem_map]
      exact fun n _ => f.isWord_toWord n
    have h := (Machine.wellFormed_start (Machine.isWord_ofWords hwords)).advanceBy budget.toNat
    obtain rfl := congrArg Prod.fst hr
    exact h.format_eq

end Capacity

namespace Console

variable {c : Console} {a : Assembler} {o : Options}

theorem announced_quiet (hv : c.verbose = false) {words : Nat} (hl : a.length = .ok words)
    (budget : Int) : c.announced host a o budget = .ok c := by
  simp only [announced, remark, hl, hv]
  rfl

/-- The reason of a halt is printed as it is. -/
theorem say_halt (hh : host.Lawful) (c : Console) (halt : Halt) :
    c.say host halt.text = { c with stdout := c.stdout ++ (halt.text ++ ['\n']) } := by
  rw [say, print, hh.shown_eq_self (List.not_mem_append halt.escape_notMem_text (by decide))]

theorem files_halted (c : Console) (m : Machine) (halt : Halt) :
    (c.halted host m halt).files = c.files := by
  rw [halted]
  cases Capacity.dump host.memory m <;> rfl

theorem halted_of_dump (hh : host.Lawful) {m : Machine}
    (hd : Capacity.dump host.memory m = .ok m.dump) (c : Console) (halt : Halt) :
    c.halted host m halt =
      { c with stdout := c.stdout ++ (halt.text ++ '\n' :: m.dump) }.finish halt.exitCode := by
  rw [halted, say_halt hh, hd]
  simp only [print, hh.shown_eq_self m.escape_notMem_dump, List.append_assoc, List.singleton_append]

theorem halted_of_failure (hh : host.Lawful) {m : Machine} {failure : Failure}
    (hd : Capacity.dump host.memory m = .error failure) (c : Console) (halt : Halt) :
    c.halted host m halt = { c with stdout := c.stdout ++ (halt.text ++ ['\n']) }.abort := by
  rw [halted, say_halt hh, hd]

end Console

namespace Halt

theorem exitCode_eq_zero_iff (halt : Halt) :
    halt.exitCode = 0 ↔ ∃ address, halt = .stopped address := by
  cases halt <;> simp [exitCode]

theorem exitCode_eq_four_iff (halt : Halt) :
    halt.exitCode = 4 ↔ ∃ m budget, halt = .exhausted m budget := by
  cases halt <;> simp [exitCode]

end Halt

namespace Options

/-- The assembler that is set up has the source run to the final machine, with the halt. -/
def Runs (o : Options) (env : Environment) (source : Text) (a : Assembler) (final : Machine)
    (halt : Halt) : Prop :=
  ∃ configuration image m, o.setUp env = .ok (configuration, a) ∧
    (Capacity.assemble .unlimited a (Path.normal o.input) source.unifyLineEnds).1 = .ok image ∧
    Capacity.load .unlimited a.format image.toList = .ok m ∧
    Capacity.run .unlimited m configuration.maxSteps = .ok (final, halt)

/-- How a run of a source ends if memory is never exhausted. The program is not run if its format is
too wide for a word to be worked out, and the final machine is not dumped if a word is too wide for
a column. -/
inductive RunEnds (host : Host) (o : Options) (env : Environment) (source : Text) (r : Report) :
    Prop
  | misconfigured {fault : ConfigurationFault} (setUp : o.setUp env = .error fault)
      (exitCode : r.exitCode = 2) (stdout : r.stdout = [])
  | refused {configuration : Configuration} {a : Assembler} {d : Diagnostic}
      (setUp : o.setUp env = .ok (configuration, a))
      (assembled : (Capacity.assemble .unlimited a (Path.normal o.input)
        source.unifyLineEnds).1 = .error (.diagnostic d))
      (exitCode : r.exitCode = 1) (stdout : r.stdout = [])
      (stderr : r.stderr = host.shown (d.text ++ ['\n']))
      (stderr_plain : escapeCharacter ∉ d.text → r.stderr = d.text ++ ['\n'])
  | oversized {configuration : Configuration} {a : Assembler}
      (setUp : o.setUp env = .ok (configuration, a))
      (accepted : ∀ d, (Capacity.assemble .unlimited a (Path.normal o.input)
        source.unifyLineEnds).1 ≠ .error (.diagnostic d))
      (width : largestExponent < a.format.wordBits) (exitCode : r.exitCode = 3)
      (stdout : r.stdout = [])
  | undumped {a : Assembler} {final : Machine} {halt : Halt}
      (runs : o.Runs env source a final halt)
      (column : largestIndex < a.format.wordDigits + 2) (exitCode : r.exitCode = 1)
      (stdout : r.stdout = halt.text ++ ['\n'])
  | halted {a : Assembler} {final : Machine} {halt : Halt}
      (runs : o.Runs env source a final halt)
      (column : a.format.wordDigits + 2 ≤ largestIndex)
      (stdout : r.stdout = halt.text ++ '\n' :: final.dump)
      (stopped : r.exitCode = 0 ↔ ∃ address, halt = .stopped address)
      (exhausted : r.exitCode = 4 ↔ ∃ m budget, halt = .exhausted m budget)

variable {o : Options} {env : Environment} {files : FileStore} {source : Text}

theorem runReport_of_error {c : Console} {f : Failure}
    (h : o.run host env (.start o.verbose files) = .error (c, f)) :
    o.runReport host env files = c.fail host "Run".toList f := by
  rw [runReport, h]

theorem runReport_of_halt {c : Console} {final : Machine} {halt : Halt}
    (h : o.run host env (.start o.verbose files) = .ok (c, final, halt)) :
    o.runReport host env files = c.halted host final halt := by
  rw [runReport, h]

theorem run_of_fault {fault : ConfigurationFault} (h : o.setUp env = .error fault) (c : Console) :
    o.run host env c = .error (c, .ofConfiguration fault) := by
  rw [run, Console.configured_eq_attempt, h]
  rfl

variable {c : Console} {configuration : Configuration} {a held : Assembler}

theorem run_of_unassembled {f : Failure} (h : o.setUp env = .ok (configuration, a))
    (ha : Capacity.assembleFile host.memory a c.files o.input = (.error f, held)) :
    o.run host env c = .error (c.log (a.fileLog c.verbose c.files o.input), f) := by
  rw [run, Console.configured_eq_attempt, h]
  change (c.assembled host.memory a o >>= _) = _
  rw [Console.assembled_eq_attempt ha]
  rfl

/-- All that is done once a program is held. -/
theorem run_of_assembled {image : Store} (h : o.setUp env = .ok (configuration, a))
    (ha : Capacity.assembleFile host.memory a c.files o.input = (.ok image, held)) :
    let later := c.log (a.fileLog c.verbose c.files o.input)
    o.run host env c =
      later.attempt (Capacity.machine host.memory held) >>= fun m =>
        later.announced host held o configuration.maxSteps >>= fun c =>
          if o.trace then c.runTraced host m configuration.maxSteps
          else (c.attempt (Capacity.run host.memory m configuration.maxSteps)).map fun result =>
            (c.log [result.1.haltLog result.2], result) := by
  intro later
  rw [run, Console.configured_eq_attempt, h]
  change (c.assembled host.memory a o >>= _) = _
  rw [Console.assembled_eq_attempt ha]
  change (later.attempt (Capacity.machine host.memory held) >>= fun m =>
    later.announced host held o configuration.maxSteps >>= fun c =>
      if o.trace then c.runTraced host m configuration.maxSteps
      else c.attempt (Capacity.run host.memory m configuration.maxSteps) >>= fun result =>
        .ok (c.log [result.1.haltLog result.2], result)) = _
  refine bind_congr fun m => bind_congr fun c => ?_
  cases Capacity.run host.memory m configuration.maxSteps <;> rfl

theorem run_of_machine {image : Store} {words : Nat} {m : Machine} {result : Machine × Halt}
    (hv : c.verbose = false) (ht : o.trace = false) (h : o.setUp env = .ok (configuration, a))
    (ha : Capacity.assembleFile host.memory a c.files o.input = (.ok image, held))
    (hl : held.length = .ok words) (hm : Capacity.machine host.memory held = .ok m)
    (hr : Capacity.run host.memory m configuration.maxSteps = .ok result) :
    let later := c.log (a.fileLog c.verbose c.files o.input)
    o.run host env c = .ok (later.log [result.1.haltLog result.2], result) := by
  intro later
  have hquiet : later.announced host held o configuration.maxSteps = .ok later :=
    Console.announced_quiet (c := later) hv hl _
  rw [run_of_assembled h ha, hm]
  change (later.announced host held o configuration.maxSteps >>= _) = _
  rw [hquiet]
  change (if o.trace = true then _ else _) = _
  rw [ht, hr]
  rfl

theorem runReport_of_refused {d : Diagnostic} (hv : o.verbose = false)
    (hr : files.readText o.input = .ok source) (hs : o.setUp env = .ok (configuration, a))
    (hd : a.programFor (Path.normal o.input) source = .error d) :
    o.runReport host env files =
      (Console.start false files).fail host "Run".toList (.diagnostic d) := by
  have hlog : (Console.start o.verbose files).log (a.fileLog o.verbose files o.input) =
      .start o.verbose files := by
    refine Console.log_eq_self hv ?_
    rw [Assembler.fileLog, hr]
    exact Assembler.level_of_mem_sourceLog hd _
  have hfile := Capacity.assembleFile_of_refused host.memory hr hd
  have hrun : o.run host env (.start o.verbose files) =
      .error (.start o.verbose files, .diagnostic d) := by
    rw [run_of_unassembled (c := .start o.verbose files) hs hfile]
    exact congrArg (fun c => Except.error (c, Failure.diagnostic d)) hlog
  rw [runReport_of_error hrun, hv]

/-- A source that is accepted is not run if the words of its format cannot be worked out. -/
theorem runReport_of_oversized {p : Program}
    (hr : files.readText o.input = .ok source) (hs : o.setUp env = .ok (configuration, a))
    (hp : a.programFor (Path.normal o.input) source = .ok p) {fault : SizeFault}
    (hw : a.format.wordFault? host.memory = some fault) :
    ∃ (c : Console) (f : Failure), c.stdout = [] ∧ c.files = files ∧ f.category = .internal ∧
      o.runReport host env files = c.fail host "Run".toList f := by
  let held : Assembler := { a with program := some p }
  have hfile : Capacity.assembleFile host.memory a files o.input =
      (Capacity.programStore host.memory p, held) :=
    Capacity.assembleFile_of_program host.memory hr hp
  rcases Capacity.programStore_outcome host.memory p with hstore | ⟨f, hstore, hf⟩
  · rw [hstore] at hfile
    have hrun := run_of_assembled (c := .start o.verbose files) hs hfile
    have hm : Capacity.machine host.memory held = .error (.size fault) := by
      rw [Capacity.machine_of_programStore (p := p) rfl hstore, Capacity.load_toList, hw]
    rw [hm] at hrun
    exact ⟨_, _, rfl, rfl, rfl, runReport_of_error hrun⟩
  · rw [hstore] at hfile
    exact ⟨_, _, rfl, rfl, hf, runReport_of_error
      (run_of_unassembled (c := .start o.verbose files) hs hfile)⟩

/-- A source that is accepted is run otherwise. -/
theorem runReport_of_program {p : Program} (hv : o.verbose = false) (ht : o.trace = false)
    (hr : files.readText o.input = .ok source) (hs : o.setUp env = .ok (configuration, a))
    (hp : a.programFor (Path.normal o.input) source = .ok p)
    (hw : a.format.wordFault? host.memory = none) :
    ∃ (c : Console) (m final : Machine) (halt : Halt), c.stdout = [] ∧ c.files = files ∧
      Capacity.load host.memory a.format p.store.toList = .ok m ∧
      m.run configuration.maxSteps = (final, halt) ∧ final.format = a.format ∧
      Capacity.run host.memory m configuration.maxSteps = .ok (final, halt) ∧
      o.runReport host env files = c.halted host final halt := by
  let held : Assembler := { a with program := some p }
  have hformat := Assembler.format_of_programFor hp
  have hstore := Capacity.programStore_of_wordFault? (hformat.symm ▸ hw)
  have hfile : Capacity.assembleFile host.memory a files o.input = (.ok p.store, held) :=
    hstore ▸ Capacity.assembleFile_of_program host.memory hr hp
  obtain ⟨m, hm⟩ := (Capacity.exists_machine_iff (a := held) rfl).mpr
    ⟨(Capacity.programStore_eq_ok_iff.mp hstore).1, hw⟩
  have hload := (Capacity.machine_of_programStore (a := held) rfl hstore).symm.trans hm
  have hrun := Capacity.run_eq (m := m) (Capacity.format_of_machine (a := held) rfl hm ▸ hw)
    configuration.maxSteps
  have hreport := runReport_of_halt (run_of_machine (c := .start o.verbose files) hv ht hs hfile
    (Assembler.length_eq (p := p) rfl) hm hrun)
  exact ⟨_, m, _, _, rfl, rfl, hload, rfl, Capacity.format_of_run hload rfl, hrun, hreport⟩

theorem runEnds_of_halted (hh : host.Lawful) (hm : host.memory = .unlimited) {final : Machine}
    {halt : Halt} (hruns : o.Runs env source a final halt) (hformat : final.format = a.format)
    (hw : a.format.wordFault? host.memory = none) (hc : c.stdout = []) :
    o.RunEnds host env source (c.halted host final halt) := by
  by_cases hcolumn : a.format.wordDigits + 2 ≤ largestIndex
  · have hd : Capacity.dump host.memory final = .ok final.dump := by
      rw [Capacity.dump_eq_ok_iff, hformat, hw, hm]
      exact ⟨⟨rfl, Capacity.column_unlimited_eq_ok_iff.mpr hcolumn⟩, rfl⟩
    rw [Console.halted_of_dump hh hd]
    have hstdout : c.stdout ++ (halt.text ++ '\n' :: final.dump) =
        halt.text ++ '\n' :: final.dump := by
      rw [hc, List.nil_append]
    exact .halted hruns hcolumn hstdout halt.exitCode_eq_zero_iff halt.exitCode_eq_four_iff
  · cases hd : Capacity.dump host.memory final with
    | ok t =>
      have hfits := (Capacity.dump_eq_ok_iff.mp hd).1.2
      rw [hm, hformat, Capacity.column_unlimited_eq_ok_iff] at hfits
      exact absurd hfits hcolumn
    | error failure =>
      rw [Console.halted_of_failure hh hd]
      have hstdout : c.stdout ++ (halt.text ++ ['\n']) = halt.text ++ ['\n'] := by
        rw [hc, List.nil_append]
      exact .undumped hruns (Nat.lt_of_not_le hcolumn) rfl hstdout

theorem runEnds_of_refused (hh : host.Lawful) {d : Diagnostic}
    (hs : o.setUp env = .ok (configuration, a))
    (hd : a.programFor (Path.normal o.input) source.unifyLineEnds = .error d) :
    o.RunEnds host env source
      ((Console.start false files).fail host "Run".toList (.diagnostic d)) := by
  have hassembled : (Capacity.assemble .unlimited a (Path.normal o.input)
      source.unifyLineEnds).1 = .error (.diagnostic d) := by
    rw [Capacity.assemble_eq, hd]
    rfl
  have hstderr : ((Console.start false files).fail host "Run".toList (.diagnostic d)).stderr =
      host.shown (d.text ++ ['\n']) := Category.report_quiet ..
  refine .refused hs hassembled rfl rfl hstderr fun hplain => ?_
  rw [hstderr, hh.shown_eq_self (List.not_mem_append hplain (by decide))]

/-- Once a source is accepted, the width of a word decides whether it is run. -/
theorem runReport_ends_of_program (hh : host.Lawful) (hm : host.memory = .unlimited)
    (hv : o.verbose = false) (ht : o.trace = false)
    (hr : files.readText o.input = .ok source.unifyLineEnds)
    (hs : o.setUp env = .ok (configuration, a)) {p : Program}
    (hp : a.programFor (Path.normal o.input) source.unifyLineEnds = .ok p) :
    (o.runReport host env files).files = files ∧
      o.RunEnds host env source (o.runReport host env files) := by
  have hword : a.format.wordFault? host.memory =
      if largestExponent < a.format.wordBits then some .tooManyDigits else none := by
    rw [hm]
    rfl
  by_cases hwidth : largestExponent < a.format.wordBits
  · rw [if_pos hwidth] at hword
    obtain ⟨c, f, hstdout, hfiles, hf, hreport⟩ := runReport_of_oversized hr hs hp hword
    have haccepted : ∀ d, (Capacity.assemble .unlimited a (Path.normal o.input)
        source.unifyLineEnds).1 ≠ .error (.diagnostic d) := by
      intro d hd
      have he := Capacity.programFor_of_diagnostic hd
      rw [hp] at he
      cases he
    have hexit : f.category.exitCode = 3 := by rw [hf, Category.exitCode]
    rw [hreport]
    exact ⟨hfiles, .oversized hs haccepted hwidth hexit hstdout⟩
  · rw [if_neg hwidth] at hword
    obtain ⟨c, m, final, halt, hstdout, hfiles, hload, hresult, hformat, hrun, hreport⟩ :=
      runReport_of_program hv ht hr hs hp hword
    have hstore := Capacity.programStore_of_wordFault?
      ((Assembler.format_of_programFor hp).symm ▸ hword)
    rw [hm] at hstore hload hrun
    have hruns : o.Runs env source a final halt := ⟨configuration, p.store, m, hs,
      Capacity.assemble_fst_eq_ok_iff.mpr ⟨p, hp, hstore⟩, hload, hrun⟩
    rw [hreport, Console.files_halted]
    exact ⟨hfiles, runEnds_of_halted hh hm hruns hformat hword hstdout⟩

theorem runReport_ends (hh : host.Lawful) (hm : host.memory = .unlimited) (hv : o.verbose = false)
    (ht : o.trace = false) (hr : files.readText o.input = .ok source.unifyLineEnds)
    (hw : ∀ fault, o.setUp env = .error fault → fault.isWritable = true) :
    (o.runReport host env files).files = files ∧
      o.RunEnds host env source (o.runReport host env files) := by
  cases hs : o.setUp env with
  | error fault =>
    have hf : Failure.ofConfiguration fault = .configuration fault := if_pos (hw fault hs)
    rw [runReport_of_error (run_of_fault hs _), hf]
    exact ⟨rfl, .misconfigured hs rfl rfl⟩
  | ok setUp =>
    obtain ⟨configuration, a⟩ := setUp
    cases hp : a.programFor (Path.normal o.input) source.unifyLineEnds with
    | error d =>
      rw [runReport_of_refused hv hr hs hp]
      exact ⟨rfl, runEnds_of_refused hh hs hp⟩
    | ok p => exact runReport_ends_of_program hh hm hv ht hr hs hp

end Options

/-- A quiet run without a trace changes no file. It prints the halt and the dump of the final
machine, or nothing: if the widths are refused, then the source, and then a format that is too
wide. -/
theorem run_outcome {env : Environment} {files : FileStore} {args : List Text} {o : Options}
    {octets : Utf8.Octets} {source : Text} (hh : host.Lawful) (hm : host.memory = .unlimited)
    (hargs : host.read .runner files args = .ok (.work o)) (hv : o.verbose = false)
    (ht : o.trace = false) (hwidths : env.WidthsFit)
    (hfile : files.stat o.input = .ok (.file octets)) (hsource : Utf8.decode octets = .ok source) :
    ∃ r, Tool.runner.respond host env files args = .report r ∧ r.files = files ∧
      o.RunEnds host env source r := by
  have hr := FileStore.readText_of_read (FileStore.read_normal hfile) hsource
  have hw : ∀ fault, o.setUp env = .error fault → fault.isWritable = true := fun _ =>
    Options.isWritable_of_setUp (hh.numbersFit hargs) hwidths
  exact ⟨o.runReport host env files, by rw [Tool.respond, hargs],
    Options.runReport_ends hh hm hv ht hr hw⟩

/-- The budget of the environment is spent on a loop, in words that an option makes longer. -/
theorem run_outcome_loop :
    let host : Host := .standard .unlimited
    let source := ":x\nsub $x\njmp $y\n:y\nabs 0d-1".toList
    let files : FileStore := ⟨[], [], [(["p.asm".toList], Utf8.encode source)]⟩
    let env : Environment := [(Configuration.maxStepsVariable, "7".toList),
      (Configuration.wordBitsVariable, "0x10".toList)]
    let args := ["--word-bits", "20", ".//p.asm"].map (·.toList)
    let o : Options := ⟨".//p.asm".toList, none, none, false, some 20, none, none, true, false,
      false⟩
    host.Lawful ∧ host.memory = .unlimited ∧ host.read .runner files args = .ok (.work o) ∧
      env.WidthsFit ∧ files.stat o.input = .ok (.file (Utf8.encode source)) ∧
      ∃ r, Tool.runner.respond host env files args = .report r ∧ r.files = files ∧
        o.RunEnds host env source r := by
  intro host source files env args o
  have hh : host.Lawful := Host.lawful_standard .unlimited
  have hargs : host.read .runner files args = .ok (.work o) := by rfl
  have hwidths : env.WidthsFit := ⟨by decide +kernel, by decide +kernel⟩
  have hfile : files.stat o.input = .ok (.file (Utf8.encode source)) := by rfl
  exact ⟨hh, rfl, hargs, hwidths, hfile,
    run_outcome hh rfl hargs rfl rfl hwidths hfile (Utf8.decode_encode source)⟩

/-- Widths that are too large for any arithmetic are no fault of the configuration. -/
theorem run_oversized :
    let host : Host := .standard .unlimited
    let files : FileStore := ⟨[], [], [(["p.asm".toList], Utf8.encode "stp".toList)]⟩
    let env : Environment :=
      [(Configuration.wordBitsVariable, "10000000000000000000000000".toList)]
    env.WidthsFit ∧ ∃ r, Tool.runner.respond host env files ["p.asm".toList] = .report r ∧
      r.exitCode = 3 := by
  intro host files env
  let o : Options := ⟨"p.asm".toList, none, none, false, none, none, none, true, false, false⟩
  have hargs : host.read .runner files ["p.asm".toList] = .ok (.work o) := by rfl
  refine ⟨⟨by decide +kernel, by decide +kernel⟩, o.runReport host env files, ?_,
    by decide +kernel⟩
  rw [Tool.respond, hargs]

end ManchesterBaby
