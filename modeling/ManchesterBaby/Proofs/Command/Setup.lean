import ManchesterBaby.Command.Response
import ManchesterBaby.Proofs.Assembler.Capacity
import ManchesterBaby.Proofs.Command.Host
import ManchesterBaby.Proofs.FileStore.Normal

/-! What both commands begin with: the numbers they are given, the settings in force and the input
file. The widths of the environment are checked before any option is put over them. -/

namespace ManchesterBaby

variable {env : Environment} {files : FileStore} {o : Options} {c : Configuration}

theorem isWritable_of_ofWidths {w i : Int} {fault : WidthFault} (hw : fitsDecimal w = true)
    (hi : fitsDecimal i = true) (h : WordFormat.ofWidths w i = .error fault) :
    (ConfigurationFault.widths fault).isWritable = true := by
  rw [WordFormat.ofWidths] at h
  split at h
  · cases h
    simp [ConfigurationFault.isWritable, WidthFault.widths, hi]
  · split at h
    · cases h
      simp [ConfigurationFault.isWritable, WidthFault.widths, hw, hi]
    · cases h

namespace Configuration

theorem format_eq_error {fault : ConfigurationFault} (h : c.format = .error fault)
    (hw : fitsDecimal c.wordBits = true) (hi : fitsDecimal c.fieldBits = true) :
    fault.isWritable = true := by
  rw [format] at h
  cases hf : WordFormat.ofWidths c.wordBits c.fieldBits with
  | error e =>
    rw [hf] at h
    cases h
    exact isWritable_of_ofWidths hw hi hf
  | ok f =>
    rw [hf] at h
    cases h

end Configuration

namespace Environment

/-- An integer that the variable holds is short enough to be written. -/
def Fits (env : Environment) (name : Text) : Prop :=
  ∀ value ∈ env.value? name, ∀ n, readAnyInteger? value.trim = some n → fitsDecimal n = true

instance (env : Environment) (name : Text) : Decidable (env.Fits name) :=
  decidable_of_iff (((env.value? name).bind fun value =>
    readAnyInteger? value.trim).all fitsDecimal = true) (by
    simp only [Option.all_eq_true, Option.bind_eq_some_iff, Fits, forall_exists_index, and_imp]
    exact ⟨fun h value hv n hn => h n value hv hn, fun h n value hv hn => h value hv n hn⟩)

structure WidthsFit (env : Environment) : Prop where
  wordBits : env.Fits Configuration.wordBitsVariable
  fieldBits : env.Fits Configuration.fieldBitsVariable

theorem Fits.integer {name : Text} {default n : Int} (h : env.Fits name)
    (hd : fitsDecimal default = true) (hn : env.integer name default = .ok n) :
    fitsDecimal n = true := by
  rw [Environment.integer] at hn
  split at hn
  · cases hn
    exact hd
  · next value hv =>
    split at hn
    · next m hm =>
      rw [← Except.ok.inj hn]
      exact h value hv m hm
    · cases hn

def checkSize (env : Environment) : Bool :=
  match env.value? Configuration.checkSizeVariable with
  | none => Configuration.standard.checkSize
  | some value => !Configuration.offWords.contains value.trim.lower

/-- Each variable is well-formed on its own, and these are the values. -/
structure Holds (env : Environment) (c : Configuration) : Prop where
  wordBits : env.integer Configuration.wordBitsVariable Configuration.standard.wordBits =
    .ok c.wordBits
  fieldBits : env.integer Configuration.fieldBitsVariable Configuration.standard.fieldBits =
    .ok c.fieldBits
  maxSteps : env.integer Configuration.maxStepsVariable Configuration.standard.maxSteps =
    .ok c.maxSteps
  maxSteps_nonneg : 0 ≤ c.maxSteps
  checkSize : c.checkSize = env.checkSize

theorem WidthsFit.of_holds (h : env.WidthsFit) (hc : env.Holds c) :
    fitsDecimal c.wordBits = true ∧ fitsDecimal c.fieldBits = true :=
  ⟨h.wordBits.integer (by decide +kernel) hc.wordBits,
    h.fieldBits.integer (by decide +kernel) hc.fieldBits⟩

end Environment

namespace Configuration

theorem ofEnvironment_eq (env : Environment) :
    ofEnvironment env = env.integer wordBitsVariable standard.wordBits >>= fun wordBits =>
      env.integer fieldBitsVariable standard.fieldBits >>= fun fieldBits =>
        env.integer maxStepsVariable standard.maxSteps >>= fun maxSteps =>
          if maxSteps < 0 then .error (.negativeSteps ((env.value? maxStepsVariable).getD []))
          else (format ⟨wordBits, fieldBits, maxSteps, env.checkSize⟩).map fun _ =>
            ⟨wordBits, fieldBits, maxSteps, env.checkSize⟩ := by
  rw [ofEnvironment]
  refine bind_congr fun wordBits => bind_congr fun fieldBits => bind_congr fun maxSteps => ?_
  change (if maxSteps < 0 then _ else _) = _
  split <;> rfl

theorem ofEnvironment_of_holds (h : env.Holds c) : ofEnvironment env = c.format.map fun _ => c := by
  obtain ⟨wordBits, fieldBits, maxSteps, checkSize⟩ := c
  obtain ⟨hw, hi, hm, hn, rfl⟩ := h
  rw [ofEnvironment_eq, hw, hi, hm]
  exact if_neg (Int.not_lt.mpr hn)

theorem isWritable_of_integer {name : Text} {default : Int} {fault : ConfigurationFault}
    (h : env.integer name default = .error fault) : fault.isWritable = true := by
  rw [Environment.integer] at h
  split at h
  · cases h
  · split at h
    · cases h
    · cases h
      rfl

/-- An environment that is not well-formed is refused with what one of its variables holds. -/
theorem ofEnvironment_outcome (env : Environment) :
    (∃ c, env.Holds c) ∨ ∃ fault, ofEnvironment env = .error fault ∧ fault.isWritable = true := by
  rw [ofEnvironment_eq]
  cases hw : env.integer wordBitsVariable standard.wordBits with
  | error fault => exact .inr ⟨fault, rfl, isWritable_of_integer hw⟩
  | ok wordBits =>
    cases hi : env.integer fieldBitsVariable standard.fieldBits with
    | error fault => exact .inr ⟨fault, rfl, isWritable_of_integer hi⟩
    | ok fieldBits =>
      cases hm : env.integer maxStepsVariable standard.maxSteps with
      | error fault => exact .inr ⟨fault, rfl, isWritable_of_integer hm⟩
      | ok maxSteps =>
        by_cases hn : 0 ≤ maxSteps
        · exact .inl ⟨⟨wordBits, fieldBits, maxSteps, env.checkSize⟩, hw, hi, hm, hn, rfl⟩
        · exact .inr ⟨_, if_pos (Int.not_le.mp hn), rfl⟩

end Configuration

namespace Options

/-- The configuration with the options over it. -/
def override (o : Options) (c : Configuration) : Configuration where
  wordBits := o.wordBits.getD c.wordBits
  fieldBits := o.fieldBits.getD c.fieldBits
  maxSteps := o.maxSteps.getD c.maxSteps
  checkSize := c.checkSize && o.checkSize

/-- The configuration in force and the assembler that it sets up. -/
def setUp (o : Options) (env : Environment) :
    Except ConfigurationFault (Configuration × Assembler) := do
  let configuration ← o.configure env
  let assembler ← o.assembler configuration
  return (configuration, assembler)

theorem setUp_eq_ok_iff {a : Assembler} :
    o.setUp env = .ok (c, a) ↔ o.configure env = .ok c ∧ o.assembler c = .ok a := by
  simp only [setUp, bind_eq_ok_iff]
  constructor
  · rintro ⟨c', hc, a', ha, h⟩
    cases h
    exact ⟨hc, ha⟩
  · rintro ⟨hc, ha⟩
    exact ⟨c, hc, a, ha, rfl⟩

theorem configure_eq (o : Options) (env : Environment) :
    o.configure env = (Configuration.ofEnvironment env).map o.override := by
  rw [configure]
  cases Configuration.ofEnvironment env <;> rfl

theorem setUp_of_holds (h : env.Holds c) :
    o.setUp env = c.format >>= fun _ =>
      (o.override c).format.map fun f =>
        (o.override c, .new o.dialect f (o.override c).checkSize) := by
  rw [setUp, configure_eq, Configuration.ofEnvironment_of_holds h]
  cases c.format with
  | error fault => rfl
  | ok f =>
    change (o.assembler (o.override c) >>= _) = _
    rw [assembler]
    cases (o.override c).format <;> rfl

theorem fits_override (ho : o.NumbersFit) (hw : fitsDecimal c.wordBits = true)
    (hi : fitsDecimal c.fieldBits = true) :
    fitsDecimal (o.override c).wordBits = true ∧ fitsDecimal (o.override c).fieldBits = true := by
  rw [override]
  constructor
  · cases hb : o.wordBits with
    | none => exact hw
    | some n => exact ho.wordBits n hb
  · cases hb : o.fieldBits with
    | none => exact hi
    | some n => exact ho.fieldBits n hb

theorem isWritable_of_holds (h : env.Holds c) (ho : o.NumbersFit)
    (hw : fitsDecimal c.wordBits = true) (hi : fitsDecimal c.fieldBits = true)
    {fault : ConfigurationFault} (hs : o.setUp env = .error fault) : fault.isWritable = true := by
  rw [setUp_of_holds h] at hs
  rcases bind_eq_error_iff.mp hs with hf | ⟨f, -, hs⟩
  · exact Configuration.format_eq_error hf hw hi
  · obtain ⟨hw', hi'⟩ := fits_override ho hw hi
    exact Configuration.format_eq_error (map_eq_error_iff.mp hs) hw' hi'

theorem isWritable_of_setUp (ho : o.NumbersFit) (he : env.WidthsFit) {fault : ConfigurationFault}
    (h : o.setUp env = .error fault) : fault.isWritable = true := by
  rcases Configuration.ofEnvironment_outcome env with ⟨c, hc⟩ | ⟨fault', hf, hw⟩
  · obtain ⟨hw, hi⟩ := he.of_holds hc
    exact isWritable_of_holds hc ho hw hi h
  · rw [setUp, configure_eq, hf] at h
    cases h
    exact hw

end Options

theorem FileStore.readText_of_read {path source : Text} {octets : Utf8.Octets}
    (h : files.read (Path.normal path) = .ok octets) (hd : Utf8.decode octets = .ok source) :
    files.readText path = .ok source.unifyLineEnds := by
  rw [readText, h]
  simp only [hd]

namespace Capacity

variable {a : Assembler} {path source : Text}

theorem assembleFile_of_refused (memory : Memory) {d : Diagnostic}
    (h : files.readText path = .ok source)
    (hd : a.programFor (Path.normal path) source = .error d) :
    assembleFile memory a files path = (.error (.diagnostic d), { a with program := none }) := by
  rw [assembleFile_of_readText h, assemble_eq, hd]
  rfl

theorem assembleFile_of_program (memory : Memory) {p : Program}
    (h : files.readText path = .ok source) (hp : a.programFor (Path.normal path) source = .ok p) :
    assembleFile memory a files path = (programStore memory p, { a with program := some p }) := by
  rw [assembleFile_of_readText h, assemble_eq, hp]
  rfl

end Capacity

namespace Console

variable {memory : Memory} {c : Console} {a held : Assembler} {entries : List LogEntry}

theorem configured_eq_attempt (c : Console) (o : Options) (env : Environment) :
    c.configured o env = c.attempt ((o.setUp env).mapError .ofConfiguration) := rfl

theorem assembled_eq_attempt {result : Except Failure Store}
    (h : Capacity.assembleFile memory a c.files o.input = (result, held)) :
    let later := c.log (a.fileLog c.verbose c.files o.input)
    c.assembled memory a o = (later.attempt result).map fun _ => (later, held) := by
  intro later
  simp only [assembled, log, h]
  cases result <;> rfl

theorem log_eq_self (hv : c.verbose = false) (h : ∀ e ∈ entries, e.level = .debug) :
    c.log entries = c := by
  have hr : entries.flatMap (·.render c.verbose) = [] := by
    rw [List.flatMap_eq_nil_iff]
    intro e he
    simp [LogEntry.render, hv, h e he]
  rw [log, hr, List.append_nil]

end Console

namespace Assembler

variable {a : Assembler} {file source : Text}

theorem level_of_mem_redeclarations {table : SymbolTable} {names : List (Text × Int)}
    {e : LogEntry} (h : e ∈ redeclarations table names) : e.level = .debug := by
  induction names generalizing table with
  | nil => cases h
  | cons n names ih =>
    rw [redeclarations] at h
    split at h
    · rcases List.mem_cons.mp h with rfl | h
      · rfl
      · exact ih h
    · exact ih h

/-- Of a source that is refused nothing but details is logged. -/
theorem level_of_mem_sourceLog {d : Diagnostic} (h : a.programFor file source = .error d)
    (verbose : Bool) : ∀ e ∈ a.sourceLog verbose file source, e.level = .debug := by
  intro e he
  rw [sourceLog] at he
  cases hr : readSource a.dialect file source with
  | error d => simp [hr] at he
  | ok lines =>
    have hl : link a.format a.checkSize lines = .error d := by
      rw [programFor, hr] at h
      exact h
    simp only [hr, hl, List.append_nil] at he
    rcases List.mem_cons.mp he with rfl | he
    · rfl
    · rcases List.mem_append.mp he with he | he
      · exact level_of_mem_redeclarations he
      · rw [List.mem_singleton.mp he]

end Assembler

end ManchesterBaby
