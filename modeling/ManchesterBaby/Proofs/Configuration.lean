import ManchesterBaby.Proofs.Command.Setup
import ManchesterBaby.Proofs.Numeral.Integers

/-! The configuration that an environment describes, and what is wrong with an environment that
describes none. -/

namespace ManchesterBaby

namespace Configuration

def integerVariables : List Text := [wordBitsVariable, fieldBitsVariable, maxStepsVariable]

end Configuration

namespace Environment

/-- An empty variable counts as unset. -/
def Sets (env : Environment) (name value : Text) : Prop :=
  env.lookup name = some value ∧ value ≠ []

inductive Gives (env : Environment) (name : Text) (default : Int) : Int → Prop
  | unset (h : ∀ value, ¬env.Sets name value) : Gives env name default default
  | set {value : Text} {n : Int} (h : env.Sets name value) (hn : IsInteger value.trim n) :
      Gives env name default n

/-- The configuration of the environment, with the default of every variable that is unset. -/
structure Describes (env : Environment) (c : Configuration) : Prop where
  wordBits : env.Gives Configuration.wordBitsVariable 32 c.wordBits
  fieldBits : env.Gives Configuration.fieldBitsVariable 16 c.fieldBits
  maxSteps : env.Gives Configuration.maxStepsVariable 1000 c.maxSteps
  eight_le_fieldBits : 8 ≤ c.fieldBits
  fieldBits_le_wordBits : c.fieldBits ≤ c.wordBits
  maxSteps_nonneg : 0 ≤ c.maxSteps
  checkSize_eq_false_iff : c.checkSize = false ↔
    ∃ value, env.Sets Configuration.checkSizeVariable value ∧
      value.trim.lower ∈ ["0".toList, "false".toList, "no".toList, "off".toList]

/-- All that is wrong with an environment. The widths are checked together. -/
inductive HasFault (env : Environment) : ConfigurationFault → Prop
  | notInteger {name value : Text} (hm : name ∈ Configuration.integerVariables)
      (h : env.Sets name value) (hn : ∀ n, ¬IsInteger value.trim n) :
      HasFault env (.notInteger name value)
  | negativeSteps {value : Text} {n : Int} (h : env.Sets Configuration.maxStepsVariable value)
      (hn : IsInteger value.trim n) (hlt : n < 0) : HasFault env (.negativeSteps value)
  | narrowField {i : Int} (hi : env.Gives Configuration.fieldBitsVariable 16 i) (hlt : i < 8) :
      HasFault env (.widths (.narrowField i))
  | narrowWord {w i : Int} (hw : env.Gives Configuration.wordBitsVariable 32 w)
      (hi : env.Gives Configuration.fieldBitsVariable 16 i) (hle : 8 ≤ i) (hlt : w < i) :
      HasFault env (.widths (.narrowWord w i))

end Environment

variable {env : Environment} {name value : Text} {default n : Int} {c : Configuration}
  {f : WordFormat} {fault : ConfigurationFault}

namespace Environment

theorem value?_eq_some_iff : env.value? name = some value ↔ env.Sets name value := by
  simp [value?, Sets, Option.filter_eq_some_iff]

theorem value?_eq_none_iff : env.value? name = none ↔ ∀ value, ¬env.Sets name value := by
  simp only [← value?_eq_some_iff, Option.eq_none_iff_forall_ne_some]

theorem readSetting_eq_some_iff :
    readAnyInteger? value.trim = some n ↔ IsInteger value.trim n := by
  rw [readAnyInteger?_eq_some_iff, trimMargin_trim]

theorem integer_eq_ok_iff : env.integer name default = .ok n ↔ env.Gives name default n := by
  constructor
  · intro h
    rw [integer] at h
    split at h
    · next hv =>
      cases h
      exact .unset (value?_eq_none_iff.mp hv)
    · next value hv =>
      split at h
      · next m hm =>
        cases h
        exact .set (value?_eq_some_iff.mp hv) (readSetting_eq_some_iff.mp hm)
      · cases h
  · intro h
    cases h with
    | unset h => simp only [integer, value?_eq_none_iff.mpr h]
    | set h hn => simp only [integer, value?_eq_some_iff.mpr h, readSetting_eq_some_iff.mpr hn]

theorem integer_eq_error_iff : env.integer name default = .error fault ↔
    ∃ value, env.Sets name value ∧ (∀ n, ¬IsInteger value.trim n) ∧
      fault = .notInteger name value := by
  constructor
  · intro h
    rw [integer] at h
    split at h
    · cases h
    · next value hv =>
      split at h
      · cases h
      · next hn =>
        cases h
        refine ⟨value, value?_eq_some_iff.mp hv, fun n hi => ?_, rfl⟩
        cases hn.symm.trans (readSetting_eq_some_iff.mpr hi)
  · rintro ⟨value, hv, hn, rfl⟩
    have hr : readAnyInteger? value.trim = none :=
      Option.eq_none_iff_forall_ne_some.mpr fun n hi => hn n (readSetting_eq_some_iff.mp hi)
    simp only [integer, value?_eq_some_iff.mpr hv, hr]

theorem Gives.unique {m : Int} (h : env.Gives name default n) (h' : env.Gives name default m) :
    n = m :=
  Except.ok.inj ((integer_eq_ok_iff.mpr h).symm.trans (integer_eq_ok_iff.mpr h'))

theorem Gives.isInteger (h : env.Gives name default n) (hs : env.Sets name value) :
    IsInteger value.trim n := by
  cases h with
  | unset h => exact absurd hs (h value)
  | set h hn =>
    cases hs.1.symm.trans h.1
    exact hn

theorem checkSize_eq_false_iff_exists : env.checkSize = false ↔
    ∃ value, env.Sets Configuration.checkSizeVariable value ∧
      value.trim.lower ∈ ["0".toList, "false".toList, "no".toList, "off".toList] := by
  simp only [← value?_eq_some_iff, checkSize]
  cases env.value? Configuration.checkSizeVariable with
  | none => simp [Configuration.standard]
  | some value =>
    rw [Bool.not_eq_false', List.contains_iff_mem]
    simp only [Option.some.injEq, exists_eq_left', Configuration.offWords]

end Environment

theorem WordFormat.ofWidths_eq_ok_iff {w i : Int} :
    ofWidths w i = .ok f ↔ f.wordBits = w ∧ f.fieldBits = i := by
  have hi := f.eight_le_fieldBits
  have hw := f.fieldBits_le_wordBits
  rw [ofWidths]
  split
  · simp only [reduceCtorEq, false_iff]
    omega
  · split
    · simp only [reduceCtorEq, false_iff]
      omega
    · obtain ⟨wordBits, fieldBits, _, _⟩ := f
      simp only [Except.ok.injEq, mk.injEq]
      omega

theorem WordFormat.ofWidths_eq_error_iff {w i : Int} {fault : WidthFault} :
    ofWidths w i = .error fault ↔
      (i < 8 ∧ fault = .narrowField i) ∨ (8 ≤ i ∧ w < i ∧ fault = .narrowWord w i) := by
  rw [ofWidths]
  split
  · next h => simp [h, Int.not_le.mpr h, eq_comm]
  · next h =>
    split
    · next hw => simp [h, hw, Int.not_lt.mp h, eq_comm]
    · next hw => simp [h, hw]

namespace Configuration

theorem format_eq_ok_iff :
    c.format = .ok f ↔ f.wordBits = c.wordBits ∧ f.fieldBits = c.fieldBits := by
  rw [format, mapError_eq_ok_iff, WordFormat.ofWidths_eq_ok_iff]

theorem exists_format_iff :
    (∃ f, c.format = .ok f) ↔ 8 ≤ c.fieldBits ∧ c.fieldBits ≤ c.wordBits := by
  constructor
  · rintro ⟨f, hf⟩
    obtain ⟨hw, hi⟩ := format_eq_ok_iff.mp hf
    have h := f.eight_le_fieldBits
    have hle := f.fieldBits_le_wordBits
    omega
  · rintro ⟨h, hle⟩
    refine ⟨⟨c.wordBits.toNat, c.fieldBits.toNat, by omega, by omega⟩, format_eq_ok_iff.mpr ?_⟩
    exact ⟨Int.toNat_of_nonneg (by omega), Int.toNat_of_nonneg (by omega)⟩

theorem holds_iff : env.Holds c ↔ env.Gives wordBitsVariable 32 c.wordBits ∧
    env.Gives fieldBitsVariable 16 c.fieldBits ∧ env.Gives maxStepsVariable 1000 c.maxSteps ∧
      0 ≤ c.maxSteps ∧ c.checkSize = env.checkSize := by
  simp only [← Environment.integer_eq_ok_iff]
  exact ⟨fun h => ⟨h.1, h.2, h.3, h.4, h.5⟩, fun h => ⟨h.1, h.2.1, h.2.2.1, h.2.2.2.1, h.2.2.2.2⟩⟩

theorem ofEnvironment_eq_ok_iff : ofEnvironment env = .ok c ↔ env.Describes c := by
  constructor
  · intro h
    simp only [ofEnvironment_eq, bind_eq_ok_iff, Environment.integer_eq_ok_iff] at h
    obtain ⟨w, hw, i, hi, n, hn, h⟩ := h
    split at h
    · cases h
    · next hneg =>
      obtain ⟨f, hf, rfl⟩ := map_eq_ok_iff.mp h
      obtain ⟨h8, hle⟩ := exists_format_iff.mp ⟨f, hf⟩
      exact ⟨hw, hi, hn, h8, hle, Int.not_lt.mp hneg, Environment.checkSize_eq_false_iff_exists⟩
  · intro h
    have hc : c.checkSize = env.checkSize := Bool.eq_iff_iff.mpr <| by
      rw [← not_iff_not, Bool.not_eq_true, Bool.not_eq_true, h.checkSize_eq_false_iff,
        Environment.checkSize_eq_false_iff_exists]
    have hh : env.Holds c :=
      holds_iff.mpr ⟨h.wordBits, h.fieldBits, h.maxSteps, h.maxSteps_nonneg, hc⟩
    obtain ⟨f, hf⟩ := exists_format_iff.mpr ⟨h.eight_le_fieldBits, h.fieldBits_le_wordBits⟩
    rw [ofEnvironment_of_holds hh, hf]
    rfl

theorem hasFault_of_format {w i n : Int} {b : Bool}
    (hw : env.Gives wordBitsVariable 32 w) (hi : env.Gives fieldBitsVariable 16 i)
    (h : format ⟨w, i, n, b⟩ = .error fault) : env.HasFault fault := by
  obtain ⟨fault, hf, rfl⟩ := mapError_eq_error_iff.mp h
  rcases WordFormat.ofWidths_eq_error_iff.mp hf with ⟨hlt, rfl⟩ | ⟨hle, hlt, rfl⟩
  · exact .narrowField hi hlt
  · exact .narrowWord hw hi hle hlt

theorem hasFault_of_ofEnvironment (h : ofEnvironment env = .error fault) : env.HasFault fault := by
  have hm : wordBitsVariable ∈ integerVariables ∧ fieldBitsVariable ∈ integerVariables ∧
      maxStepsVariable ∈ integerVariables := by simp [integerVariables]
  simp only [ofEnvironment_eq, bind_eq_error_iff, Environment.integer_eq_error_iff,
    Environment.integer_eq_ok_iff] at h
  rcases h with ⟨value, hv, hn, rfl⟩ | ⟨w, hw, ⟨value, hv, hn, rfl⟩ | ⟨i, hi, h⟩⟩
  · exact .notInteger hm.1 hv hn
  · exact .notInteger hm.2.1 hv hn
  rcases h with ⟨value, hv, hn, rfl⟩ | ⟨n, hn, h⟩
  · exact .notInteger hm.2.2 hv hn
  split at h
  · next hneg =>
    cases h
    cases hn with
    | unset => exact absurd hneg (by decide)
    | set hv hn =>
      rw [Environment.value?_eq_some_iff.mpr hv]
      exact .negativeSteps hv hn hneg
  · exact hasFault_of_format hw hi (map_eq_error_iff.mp h)

/-- An environment that describes a configuration has nothing wrong with it. -/
theorem not_hasFault_of_describes (h : env.Describes c) : ¬env.HasFault fault := by
  intro hf
  cases hf with
  | notInteger hm hs hn =>
    simp only [integerVariables, List.mem_cons, List.not_mem_nil, or_false] at hm
    rcases hm with rfl | rfl | rfl
    · exact hn _ (h.wordBits.isInteger hs)
    · exact hn _ (h.fieldBits.isInteger hs)
    · exact hn _ (h.maxSteps.isInteger hs)
  | negativeSteps hs hn hlt =>
    have he := h.maxSteps.unique (.set hs hn)
    have hle := h.maxSteps_nonneg
    omega
  | narrowField hi hlt =>
    have he := h.fieldBits.unique hi
    have hle := h.eight_le_fieldBits
    omega
  | narrowWord hw hi _ hlt =>
    have hw := h.wordBits.unique hw
    have hi := h.fieldBits.unique hi
    have hle := h.fieldBits_le_wordBits
    omega

theorem isWritable_of_ofEnvironment (h : env.WidthsFit) (hf : ofEnvironment env = .error fault) :
    fault.isWritable = true := by
  rcases ofEnvironment_outcome env with ⟨c, hc⟩ | ⟨fault', hf', hw⟩
  · obtain ⟨hw, hi⟩ := h.of_holds hc
    rw [ofEnvironment_of_holds hc, map_eq_error_iff] at hf
    exact format_eq_error hf hw hi
  · rw [hf'] at hf
    cases hf
    exact hw

/-- What comes of an environment whose widths can be written. It gives the one configuration that it
describes, whose widths make a word format, or one of its faults is reported. -/
theorem ofEnvironment_reported (env : Environment) (h : env.WidthsFit) :
    let result := (ofEnvironment env).mapError Failure.ofConfiguration
    (∀ c, result = .ok c ↔ env.Describes c) ∧
      ((∃ fault, result = .error (.configuration fault)) ↔ ∃ fault, env.HasFault fault) ∧
      (∀ failure, result = .error failure →
        ∃ fault, failure = .configuration fault ∧ env.HasFault fault) ∧
      ∀ c, result = .ok c → ∃ f, c.format = .ok f ∧ f.wordBits = c.wordBits ∧
        f.fieldBits = c.fieldBits := by
  intro result
  have hok : ∀ c, result = .ok c ↔ env.Describes c := fun c =>
    mapError_eq_ok_iff.trans ofEnvironment_eq_ok_iff
  have herror : ∀ failure, result = .error failure →
      ∃ fault, failure = .configuration fault ∧ env.HasFault fault := by
    intro failure hr
    obtain ⟨fault, hf, rfl⟩ := mapError_eq_error_iff.mp hr
    exact ⟨fault, if_pos (isWritable_of_ofEnvironment h hf), hasFault_of_ofEnvironment hf⟩
  refine ⟨hok, ⟨?_, ?_⟩, herror, fun c hc => ?_⟩
  · rintro ⟨fault, hr⟩
    obtain ⟨fault, -, hf⟩ := herror _ hr
    exact ⟨fault, hf⟩
  · rintro ⟨fault, hf⟩
    cases hr : result with
    | ok c => exact absurd hf (not_hasFault_of_describes ((hok c).mp hr))
    | error failure =>
      obtain ⟨fault, rfl, -⟩ := herror failure hr
      exact ⟨fault, rfl⟩
  · have hd := (hok c).mp hc
    obtain ⟨f, hf⟩ := exists_format_iff.mpr ⟨hd.eight_le_fieldBits, hd.fieldBits_le_wordBits⟩
    exact ⟨f, hf, format_eq_ok_iff.mp hf⟩

/-- Numerals with signs, markers, underscores and two zeros, an order to switch off in capitals, and
a width that is too small for the default of the other. -/
theorem ofEnvironment_reported_numerals :
    let env : Environment := [(wordBitsVariable, " 0x_2_0\t".toList),
      (fieldBitsVariable, "+0b1000".toList), (maxStepsVariable, "-00".toList),
      (checkSizeVariable, " OFF ".toList)]
    let narrow : Environment := [(wordBitsVariable, "1_2".toList), (fieldBitsVariable, [])]
    (env.WidthsFit ∧ narrow.WidthsFit) ∧ env.Describes ⟨32, 8, 0, false⟩ ∧
      narrow.HasFault (.widths (.narrowWord 12 16)) := by
  intro env narrow
  have hw : env.WidthsFit := ⟨by decide +kernel, by decide +kernel⟩
  have hn : narrow.WidthsFit := ⟨by decide +kernel, by decide +kernel⟩
  obtain ⟨fault, he, hf⟩ := (ofEnvironment_reported narrow hn).2.2.1
    (.configuration (.widths (.narrowWord 12 16))) (by decide +kernel)
  cases he
  exact ⟨⟨hw, hn⟩, ((ofEnvironment_reported env hw).1 _).mp (by decide +kernel), hf⟩

end Configuration

end ManchesterBaby
