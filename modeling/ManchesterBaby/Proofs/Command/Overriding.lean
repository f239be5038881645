import ManchesterBaby.Proofs.Command.Output
import ManchesterBaby.Proofs.Command.Running
import ManchesterBaby.Proofs.Command.Tracing

/-! Options over the environment. A command goes by the widths in force wherever they come from,
except that the environment's own are checked as well, before any option is looked at. -/

namespace ManchesterBaby

variable {host : Host} {env moved : Environment} {files : FileStore} {o : Options}
  {c configuration : Configuration} {a held : Assembler} {p : Program} {image : Store}
  {octets : Utf8.Octets}

namespace Capacity

/-- A file that is there is not missing when it is assembled. -/
theorem assembleFile_outcome (memory : Memory) (a : Assembler) {path : Text}
    (h : files.stat path = .ok (.file octets)) :
    (∃ f held, assembleFile memory a files path = (.error f, held) ∧ f.category.exitCode ≠ 2) ∨
      ∃ source p, files.readText path = .ok source ∧
        a.programFor (Path.normal path) source = .ok p ∧
          programStore memory p = .ok p.store := by
  cases hd : Utf8.decode octets with
  | error fault =>
    have hr : files.readText path = .error (.undecodable fault) := by
      rw [FileStore.readText, FileStore.read_normal h]
      simp only [hd]
    exact .inl ⟨.undecodable fault, a, assembleFile_of_unread hr,
      by simp [Failure.category, Category.exitCode]⟩
  | ok source =>
    have hr := FileStore.readText_of_read (FileStore.read_normal h) hd
    cases hp : a.programFor (Path.normal path) source.unifyLineEnds with
    | error d =>
      exact .inl ⟨.diagnostic d, _, assembleFile_of_refused memory hr hp,
        by simp [Failure.category, Category.exitCode]⟩
    | ok p =>
      rcases programStore_outcome memory p with hs | ⟨f, hs, hf⟩
      · exact .inr ⟨_, p, hr, hp, hs⟩
      · have hfile := assembleFile_of_program memory hr hp
        rw [hs] at hfile
        exact .inl ⟨f, _, hfile, by rw [hf]; decide⟩

end Capacity

namespace Console

variable {c later : Console} {f : Failure}

theorem unwritable_of_announced {budget : Int} {words : Nat} (hl : a.length = .ok words)
    (h : c.announced host a o budget = .error (later, f)) : f = .unwritable := by
  rw [announced, hl] at h
  change (if (c.verbose && !fitsDecimal budget) = true then Except.error (c, _) else _) = _ at h
  split at h
  · exact (Prod.ext_iff.mp (Except.error.inj h)).2.symm
  · cases h

theorem exitCode_halted_ne {m : Machine} {halt : Halt} : (c.halted host m halt).exitCode ≠ 2 := by
  rw [halted]
  cases Capacity.dump host.memory m with
  | ok dump =>
    change halt.exitCode ≠ 2
    cases halt <;> simp [Halt.exitCode]
  | error failure => simp [abort, finish]

end Console

def Configuration.HasFormat (c : Configuration) : Prop := ∃ f, c.format = .ok f

namespace Options

/-- The options but for the widths. -/
def withoutWidths (o : Options) : Options := { o with wordBits := none, fieldBits := none }

/-- The configuration with the widths that are options over its own. -/
def withWidths (o : Options) (c : Configuration) : Configuration :=
  { c with wordBits := o.wordBits.getD c.wordBits, fieldBits := o.fieldBits.getD c.fieldBits }

theorem exists_setUp_iff (h : env.Holds c) :
    (∃ setUp, o.setUp env = .ok setUp) ↔ c.HasFormat ∧ (o.withWidths c).HasFormat := by
  have hf : (o.withWidths c).format = (o.override c).format := rfl
  rw [setUp_of_holds h, Configuration.HasFormat, Configuration.HasFormat, hf]
  simp only [bind_eq_ok_iff, map_eq_ok_iff]
  constructor
  · rintro ⟨_, f, hf, g, hg, -⟩
    exact ⟨⟨f, hf⟩, g, hg⟩
  · rintro ⟨⟨f, hf⟩, g, hg⟩
    exact ⟨_, f, hf, g, hg, rfl⟩

theorem exists_fault (h : env.Holds c) (hn : ¬(c.HasFormat ∧ (o.withWidths c).HasFormat)) :
    ∃ fault, o.setUp env = .error fault := by
  cases hs : o.setUp env with
  | error fault => exact ⟨fault, rfl⟩
  | ok setUp => exact absurd ((exists_setUp_iff h).mp ⟨setUp, hs⟩) hn

theorem setUp_withoutWidths {f : WordFormat} (h : env.Holds c) (hm : moved.Holds (o.withWidths c))
    (hf : c.format = .ok f) : o.setUp env = o.withoutWidths.setUp moved := by
  rw [setUp_of_holds h, setUp_of_holds hm, hf]
  change (o.override c).format.map _ = (o.override c).format >>= fun _ => _
  cases ho : (o.override c).format with
  | error fault => rfl
  | ok g =>
    change _ = Except.map _ (o.override c).format
    rw [ho]
    rfl

/-- What keeps a program that is held from being run is a failure of the program that runs it. -/
theorem category_of_run {later : Console} {f : Failure} (hs : o.setUp env = .ok (configuration, a))
    (ha : Capacity.assembleFile host.memory a files o.input = (.ok image, held))
    (hp : held.program = some p)
    (h : o.run host env (.start o.verbose files) = .error (later, f)) :
    f.category = .internal := by
  rw [run_of_assembled (c := .start o.verbose files) hs ha, bind_eq_error_iff] at h
  rcases h with h | ⟨m, -, h⟩
  · exact Capacity.category_of_machine hp (Console.attempt_eq_error_iff.mp h).2
  · rcases bind_eq_error_iff.mp h with h | ⟨c, -, h⟩
    · rw [Console.unwritable_of_announced (Assembler.length_eq hp) h]
      rfl
    · split at h
      · exact Console.category_of_runTraced h
      · exact Capacity.category_of_run (Console.attempt_eq_error_iff.mp (map_eq_error_iff.mp h)).2

theorem runReport_exitCode_ne (hs : o.setUp env = .ok (configuration, a))
    (hfile : files.stat o.input = .ok (.file octets)) :
    (o.runReport host env files).exitCode ≠ 2 := by
  rcases Capacity.assembleFile_outcome host.memory a hfile with
    ⟨f, held, ha, hf⟩ | ⟨source, p, hr, hp, hstore⟩
  · rw [runReport_of_error (run_of_unassembled (c := .start o.verbose files) hs ha)]
    exact hf
  · have ha := Capacity.assembleFile_of_program host.memory hr hp
    rw [hstore] at ha
    cases hrun : o.run host env (.start o.verbose files) with
    | ok result =>
      obtain ⟨c, final, halt⟩ := result
      rw [runReport_of_halt hrun]
      exact Console.exitCode_halted_ne
    | error e =>
      obtain ⟨c, f⟩ := e
      rw [runReport_of_error hrun]
      change f.category.exitCode ≠ 2
      rw [category_of_run hs ha rfl hrun]
      decide

theorem assembleReport_exitCode_ne (hs : o.setUp env = .ok (configuration, a))
    (hfile : files.stat o.input = .ok (.file octets))
    (hw : ∀ path ∈ o.targets, files.Writable (Path.normal path)) :
    (o.assembleReport host env files).exitCode ≠ 2 := by
  rcases Capacity.assembleFile_outcome host.memory a hfile with
    ⟨f, held, ha, hf⟩ | ⟨source, p, hr, hp, hstore⟩
  · obtain ⟨later, hrun, -⟩ := assemble_of_unassembled (c := .start o.verbose files) hs ha
    rw [assembleReport_of_error hrun]
    exact hf
  · obtain ⟨hc, ha⟩ := setUp_eq_ok_iff.mp hs
    have hexit := assembleReport_exitCode hc ha hr hp hstore
      (forall_targets.mp hw).1 (forall_targets.mp hw).2
    cases hl : Capacity.listing host.memory { a with program := some p } with
    | ok t =>
      rw [hexit.1 t hl]
      decide
    | error failure =>
      rw [hexit.2 failure hl]
      decide

end Options

namespace Report

/-- The same exit code, output and files. What is logged is not looked at. -/
structure SameAs (r other : Report) : Prop where
  exitCode : r.exitCode = other.exitCode
  stdout : r.stdout = other.stdout
  files : r.files = other.files

end Report

namespace Tool

variable {tool : Tool} {args : List Text} {fault : ConfigurationFault}

def report (host : Host) (tool : Tool) (o : Options) (env : Environment) (files : FileStore) :
    Report :=
  match tool with
  | assembler => o.assembleReport host env files
  | runner => o.runReport host env files

theorem respond_of_read (h : host.read tool files args = .ok (.work o)) :
    tool.respond host env files args = .report (tool.report host o env files) := by
  rw [respond, h]
  cases tool <;> rfl

theorem report_congr (h : o.setUp env = o.withoutWidths.setUp moved) :
    tool.report host o env files = tool.report host o.withoutWidths moved files := by
  cases tool with
  | assembler =>
    simp only [report, Options.assembleReport, Options.assemble, Console.configured_eq_attempt, h]
    rfl
  | runner =>
    simp only [report, Options.runReport, Options.run, Console.configured_eq_attempt, h]
    rfl

theorem report_of_fault (h : o.setUp env = .error fault) (hw : fault.isWritable = true) :
    (tool.report host o env files).SameAs ⟨2, [], [], files⟩ := by
  have hf : Failure.ofConfiguration fault = .configuration fault := if_pos hw
  cases tool with
  | assembler =>
    rw [report, Options.assembleReport_of_fault h, hf]
    exact ⟨rfl, rfl, rfl⟩
  | runner =>
    rw [report, Options.runReport_of_error (Options.run_of_fault h _), hf]
    exact ⟨rfl, rfl, rfl⟩

theorem sameAs_of_faults {other : Options} {fault' : ConfigurationFault}
    (h : o.setUp env = .error fault) (hw : fault.isWritable = true)
    (h' : other.setUp moved = .error fault') (hw' : fault'.isWritable = true) :
    (tool.report host o env files).SameAs (tool.report host other moved files) := by
  have hr : (tool.report host o env files).SameAs _ := report_of_fault h hw
  have hr' : (tool.report host other moved files).SameAs _ := report_of_fault h' hw'
  exact ⟨hr.exitCode.trans hr'.exitCode.symm, hr.stdout.trans hr'.stdout.symm,
    hr.files.trans hr'.files.symm⟩

theorem report_exitCode_ne (hs : o.setUp env = .ok (configuration, a))
    (hfile : files.stat o.input = .ok (.file octets))
    (hw : ∀ path ∈ o.targets, files.Writable (Path.normal path)) :
    (tool.report host o env files).exitCode ≠ 2 := by
  cases tool with
  | assembler => exact Options.assembleReport_exitCode_ne hs hfile hw
  | runner => exact Options.runReport_exitCode_ne hs hfile

theorem report_exitCode_iff (hfile : files.stat o.input = .ok (.file octets))
    (hw : ∀ path ∈ o.targets, files.Writable (Path.normal path))
    (hfault : ∀ fault, o.setUp env = .error fault → fault.isWritable = true) :
    (tool.report host o env files).exitCode = 2 ↔ ¬∃ setUp, o.setUp env = .ok setUp := by
  cases hs : o.setUp env with
  | error fault =>
    simp only [(report_of_fault hs (hfault fault hs)).exitCode, reduceCtorEq, exists_false,
      not_false_iff]
  | ok setUp => simp only [report_exitCode_ne hs hfile hw, Except.ok.injEq, exists_eq', not_true]

end Tool

/-- Widths that are options do what they do in the environment if the widths they take the place of
make a format themselves. If those make none, they are refused, and so it is the same just if the
widths in force make none either. -/
theorem respond_withWidths {host : Host} {tool : Tool} {env moved : Environment} {files : FileStore}
    {args others : List Text} {o : Options} {c : Configuration}
    (hh : host.Lawful) (hargs : host.read tool files args = .ok (.work o))
    (hothers : host.read tool files others = .ok (.work o.withoutWidths))
    (henv : env.Holds c) (hmoved : moved.Holds (o.withWidths c)) :
    (c.HasFormat → tool.respond host env files args = tool.respond host moved files others) ∧
      (env.WidthsFit → (∀ path ∈ o.targets, files.Writable (Path.normal path)) →
        ∃ r other, tool.respond host env files args = .report r ∧
          tool.respond host moved files others = .report other ∧
          (r.exitCode = 2 ↔ ¬(c.HasFormat ∧ (o.withWidths c).HasFormat)) ∧
          (r.SameAs other ↔ c.HasFormat ∨ ¬(o.withWidths c).HasFormat)) := by
  obtain ⟨octets, hfile⟩ := hh.stat_input hargs
  have hnumbers := hh.numbersFit hargs
  have hsame : c.HasFormat →
      tool.report host o env files = tool.report host o.withoutWidths moved files := by
    rintro ⟨f, hf⟩
    exact Tool.report_congr (Options.setUp_withoutWidths henv hmoved hf)
  rw [Tool.respond_of_read hargs, Tool.respond_of_read hothers]
  refine ⟨fun hf => congrArg _ (hsame hf), fun hfit hw => ?_⟩
  have hfault : ∀ fault, o.setUp env = .error fault → fault.isWritable = true := fun fault =>
    Options.isWritable_of_setUp hnumbers hfit
  have hfault' : ∀ fault, o.withoutWidths.setUp moved = .error fault → fault.isWritable = true := by
    intro fault
    obtain ⟨hwordBits, hfieldBits⟩ := hfit.of_holds henv
    obtain ⟨hwordBits', hfieldBits'⟩ := Options.fits_override hnumbers hwordBits hfieldBits
    have hnone : o.withoutWidths.NumbersFit := ⟨by simp [Options.withoutWidths],
      by simp [Options.withoutWidths]⟩
    exact Options.isWritable_of_holds hmoved hnone hwordBits' hfieldBits'
  have hexit : (tool.report host o env files).exitCode = 2 ↔ _ :=
    Tool.report_exitCode_iff hfile hw hfault
  have hexit' : (tool.report host o.withoutWidths moved files).exitCode = 2 ↔ _ :=
    Tool.report_exitCode_iff hfile hw hfault'
  have hinForce : o.withoutWidths.withWidths (o.withWidths c) = o.withWidths c := rfl
  rw [Options.exists_setUp_iff henv] at hexit
  rw [Options.exists_setUp_iff hmoved, hinForce, and_self] at hexit'
  refine ⟨_, _, rfl, rfl, hexit, ?_⟩
  by_cases hf : c.HasFormat
  · refine iff_of_true ?_ (.inl hf)
    rw [hsame hf]
    exact ⟨rfl, rfl, rfl⟩
  · have hown : ¬(c.HasFormat ∧ (o.withWidths c).HasFormat) := fun h => hf h.1
    by_cases hf' : (o.withWidths c).HasFormat
    · refine iff_of_false (fun h => ?_) (not_or.mpr ⟨hf, not_not.mpr hf'⟩)
      exact hexit'.mp (h.exitCode.symm.trans (hexit.mpr hown)) hf'
    · refine iff_of_true ?_ (.inr hf')
      obtain ⟨fault, hs⟩ := Options.exists_fault henv hown
      obtain ⟨fault', hs'⟩ := Options.exists_fault hmoved fun h => hf' h.1
      exact Tool.sameAs_of_faults hs (hfault fault hs) hs' (hfault' fault' hs')

/-- The field of the environment fits into the word of the option, as into the usual word. -/
theorem respond_withWidths_shortWord :
    let host : Host := .standard .unlimited
    let source := "ldn $x\nstp\n:x\nabs 0d5".toList
    let files : FileStore := ⟨[], [], [(["p.asm".toList], Utf8.encode source)]⟩
    let env : Environment := [(Configuration.fieldBitsVariable, "0o10".toList),
      (Configuration.maxStepsVariable, "2".toList)]
    let moved : Environment := (Configuration.wordBitsVariable, "0b1100".toList) :: env
    let args := ["p.asm", "--word-bits", "12"].map (·.toList)
    let o : Options := ⟨"p.asm".toList, none, none, false, some 12, none, none, true, false, false⟩
    let c : Configuration := ⟨32, 8, 2, true⟩
    host.Lawful ∧ host.read .runner files args = .ok (.work o) ∧
      host.read .runner files ["p.asm".toList] = .ok (.work o.withoutWidths) ∧
      env.Holds c ∧ moved.Holds (o.withWidths c) ∧ c.HasFormat ∧ env.WidthsFit ∧
      Tool.runner.respond host env files args =
        Tool.runner.respond host moved files ["p.asm".toList] ∧
      ∃ r other, Tool.runner.respond host env files args = .report r ∧
        Tool.runner.respond host moved files ["p.asm".toList] = .report other ∧
        (r.exitCode = 2 ↔ ¬(c.HasFormat ∧ (o.withWidths c).HasFormat)) ∧
        (r.SameAs other ↔ c.HasFormat ∨ ¬(o.withWidths c).HasFormat) := by
  intro host source files env moved args o c
  have hh : host.Lawful := Host.lawful_standard .unlimited
  have hargs : host.read .runner files args = .ok (.work o) := by rfl
  have hothers : host.read .runner files ["p.asm".toList] = .ok (.work o.withoutWidths) := by rfl
  have henv : env.Holds c := ⟨by decide +kernel, by decide +kernel, by decide +kernel, by decide,
    by decide +kernel⟩
  have hmoved : moved.Holds (o.withWidths c) := ⟨by decide +kernel, by decide +kernel,
    by decide +kernel, by decide, by decide +kernel⟩
  have hf : c.HasFormat := ⟨⟨32, 8, by decide, by decide⟩, rfl⟩
  have hfit : env.WidthsFit := ⟨by decide +kernel, by decide +kernel⟩
  obtain ⟨hsame, hexit⟩ := respond_withWidths hh hargs hothers henv hmoved
  have hw : ∀ path ∈ o.targets, files.Writable (Path.normal path) := by simp [o, Options.targets]
  exact ⟨hh, hargs, hothers, henv, hmoved, hf, hfit, hsame hf, hexit hfit hw⟩

/-- The word of the environment is too short for the usual field, and is refused though the field of
the option would fit. -/
theorem shortWord_refused :
    let host : Host := .standard .unlimited
    let files : FileStore := ⟨[], [], [(["p.asm".toList], Utf8.encode "stp\n".toList)]⟩
    let env : Environment := [(Configuration.wordBitsVariable, ['8'])]
    let moved : Environment := (Configuration.fieldBitsVariable, ['8']) :: env
    let args := ["--instruction-bits", "8", "p.asm"].map (·.toList)
    let c : Configuration := ⟨8, 8, 1000, true⟩
    env.Holds ⟨8, 16, 1000, true⟩ ∧ moved.Holds c ∧ c.HasFormat ∧
      ∃ r other, Tool.assembler.respond host env files args = .report r ∧
        Tool.assembler.respond host moved files ["p.asm".toList] = .report other ∧
        r.exitCode = 2 ∧ other.exitCode = 0 := by
  intro host files env moved args c
  let o : Options := ⟨"p.asm".toList, none, none, false, none, some 8, none, true, false, false⟩
  have hargs : host.read .assembler files args = .ok (.work o) := by rfl
  have hothers : host.read .assembler files ["p.asm".toList] =
      .ok (.work o.withoutWidths) := by rfl
  refine ⟨⟨by decide +kernel, by decide +kernel, by decide +kernel, by decide, by decide +kernel⟩,
    ⟨by decide +kernel, by decide +kernel, by decide +kernel, by decide, by decide +kernel⟩,
    ⟨⟨8, 8, by decide, by decide⟩, rfl⟩, o.assembleReport host env files,
    o.withoutWidths.assembleReport host moved files, ?_, ?_, by decide +kernel, by decide +kernel⟩
  · rw [Tool.respond, hargs]
  · rw [Tool.respond, hothers]

end ManchesterBaby
