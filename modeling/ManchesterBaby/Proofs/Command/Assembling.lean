import ManchesterBaby.Proofs.Assembler.Layout
import ManchesterBaby.Proofs.Assembler.Reports
import ManchesterBaby.Proofs.Command.Setup

/-! How the command that assembles a file ends. Once the source is accepted, it comes to nothing but
the listing and the files that are written. -/

namespace ManchesterBaby

variable {host : Host} {c : Console} {a : Assembler} {p : Program} {o : Options}
  {env : Environment}

namespace FileStore

theorem readText_of_encode {s : FileStore} {path source : Text}
    (h : s.read (Path.normal path) = .ok (Utf8.encode source)) :
    s.readText path = .ok source.unifyLineEnds :=
  readText_of_read h (Utf8.decode_encode source)

theorem writeText_of_writable {s : FileStore} {path : Text} (h : s.Writable (Path.normal path))
    (t : Text) :
    ∃ written, s.writeText path t = .ok written ∧
      ∀ other, s.Writable other → written.Writable other := by
  obtain ⟨written, hw, hk⟩ := write_of_writable h (Utf8.encode t)
  exact ⟨written, by rw [writeText, hw]; rfl, hk⟩

end FileStore

namespace Console

theorem files_remark (t : Text) : (c.remark host t).files = c.files := by
  rw [remark]
  split <;> rfl

theorem listed_of_listing {t : Text} {target : Option Text}
    (hl : Capacity.listing host.memory a = .ok t)
    (hw : ∀ path ∈ target, c.files.Writable (Path.normal path)) :
    ∃ later, c.listed host a target = .ok later ∧
      ∀ other, c.files.Writable other → later.files.Writable other := by
  cases target with
  | none =>
    refine ⟨c.print host t, ?_, fun _ h => h⟩
    rw [listed, hl]
    rfl
  | some path =>
    obtain ⟨written, hf, hk⟩ := FileStore.writeText_of_writable (hw path rfl) t
    have hx : Capacity.writeListing host.memory a c.files path = .ok written := by
      rw [Capacity.writeListing, hl]
      exact hf
    refine ⟨_, by rw [listed, hx]; rfl, ?_⟩
    rw [files_remark]
    exact hk

theorem listed_of_failure {failure : Failure} (hl : Capacity.listing host.memory a = .error failure)
    (target : Option Text) : c.listed host a target = .error (c, failure) := by
  cases target with
  | none =>
    rw [listed, hl]
    rfl
  | some path =>
    rw [listed, Capacity.writeListing, hl]
    rfl

theorem symbolsWritten_of_report {t : Text} {target : Option Text} (hs : a.symbolReport = .ok t)
    (hw : ∀ path ∈ target, c.files.Writable (Path.normal path)) :
    ∃ later, c.symbolsWritten host a target = .ok later := by
  cases target with
  | none => exact ⟨c, rfl⟩
  | some path =>
    obtain ⟨written, hf, -⟩ := FileStore.writeText_of_writable (hw path rfl) t
    have hx : a.writeSymbols c.files path = .ok written := by
      rw [Assembler.writeSymbols, hs]
      exact hf
    exact ⟨_, by rw [symbolsWritten, hx]; rfl⟩

theorem concluded_of_program (hp : a.program = some p) :
    ∃ later, c.concluded host a = .ok later := by
  rw [concluded, Assembler.length, Assembler.symbols, Assembler.held_eq hp]
  exact ⟨_, rfl⟩

end Console

namespace Options

/-- What is done once the assembler is set up. -/
theorem assemble_of_setUp {configuration : Configuration}
    (h : o.setUp env = .ok (configuration, a)) :
    let opened := c.remark host ("Assembling ".toList ++ o.shownInput ++ "...".toList)
    o.assemble host env c = opened.assembled host.memory a o >>= fun (c, held) =>
      c.listed host held o.listing >>= fun c =>
        c.symbolsWritten host held o.symbols >>= fun c => c.concluded host held := by
  rw [assemble, Console.configured_eq_attempt, h]
  rfl

end Options

section

variable {configuration : Configuration} {files : FileStore} {source : Text} {image : Store}

/-- What is left to be done once the source is accepted. -/
theorem assemble_eq_of_accepted (ho : o.configure env = .ok configuration)
    (ha : o.assembler configuration = .ok a) (hr : files.readText o.input = .ok source)
    (hp : a.programFor (Path.normal o.input) source = .ok p)
    (hs : Capacity.programStore host.memory p = .ok image) :
    let held : Assembler := { a with program := some p }
    ∃ c : Console, c.files = files ∧
      o.assemble host env (.start o.verbose files) =
        c.listed host held o.listing >>= fun c =>
          c.symbolsWritten host held o.symbols >>= fun c => c.concluded host held := by
  intro held
  let opened := (Console.start o.verbose files).remark host
    ("Assembling ".toList ++ o.shownInput ++ "...".toList)
  have hf : opened.files = files := Console.files_remark _
  have hsetUp : o.setUp env = .ok (configuration, a) := Options.setUp_eq_ok_iff.mpr ⟨ho, ha⟩
  have hfile := Capacity.assembleFile_of_program host.memory hr hp
  rw [hs, ← hf] at hfile
  refine ⟨opened.log (a.fileLog opened.verbose opened.files o.input), hf, ?_⟩
  rw [Options.assemble_of_setUp hsetUp, Console.assembled_eq_attempt (c := opened) hfile]
  rfl

/-- An accepted source is reported on and the command succeeds, unless it cannot be listed. Then the
command ends as if the program that runs it were at fault. -/
theorem assembleReport_exitCode (ho : o.configure env = .ok configuration)
    (ha : o.assembler configuration = .ok a) (hr : files.readText o.input = .ok source)
    (hp : a.programFor (Path.normal o.input) source = .ok p)
    (hs : Capacity.programStore host.memory p = .ok image)
    (hlisting : ∀ path ∈ o.listing, files.Writable (Path.normal path))
    (hsymbols : ∀ path ∈ o.symbols, files.Writable (Path.normal path)) :
    let held : Assembler := { a with program := some p }
    (∀ t, Capacity.listing host.memory held = .ok t →
        (o.assembleReport host env files).exitCode = 0) ∧
      ∀ failure, Capacity.listing host.memory held = .error failure →
        (o.assembleReport host env files).exitCode = 3 := by
  intro held
  obtain ⟨c, rfl, hc⟩ := assemble_eq_of_accepted ho ha hr hp hs
  have hh : held.program = some p := rfl
  constructor
  · intro t hl
    obtain ⟨listed, hlisted, hk⟩ := Console.listed_of_listing hl hlisting
    obtain ⟨written, hwritten⟩ := Console.symbolsWritten_of_report
      (Assembler.symbolReport_eq hh) fun path hm => hk _ (hsymbols path hm)
    obtain ⟨final, hfinal⟩ := written.concluded_of_program hh
    have hok : o.assemble host env (.start o.verbose c.files) = .ok final := by
      rw [hc, hlisted]
      change (listed.symbolsWritten host _ o.symbols >>= _) = _
      rw [hwritten]
      exact hfinal
    rw [Options.assembleReport, hok]
    rfl
  · intro failure hl
    have herr : o.assemble host env (.start o.verbose c.files) = .error (c, failure) := by
      rw [hc, Console.listed_of_failure hl]
      rfl
    rw [Options.assembleReport, herr]
    change failure.category.exitCode = 3
    rw [Capacity.category_of_listing hh hl]
    rfl

end

/-- The options have the source assembled under the assembler's settings, and name only files that
can be written. -/
structure Options.Assembles (o : Options) (env : Environment) (files : FileStore) (a : Assembler)
    (source : Text) : Prop where
  settings : ∃ configuration, o.configure env = .ok configuration ∧
    o.assembler configuration = .ok (.new a.dialect a.format a.checkSize)
  input : files.read (Path.normal o.input) = .ok (Utf8.encode source)
  listing : ∀ path ∈ o.listing, files.Writable (Path.normal path)
  symbols : ∀ path ∈ o.symbols, files.Writable (Path.normal path)

/-- The symbols of an accepted source can be reported. It can be listed just if its column can be
set up and its values can be written, and the command on a file with the source succeeds just if it
can be listed. -/
theorem reports_of_accepted {file source : Text} {image : Store}
    (h : (Capacity.assemble .unlimited a file source).1 = .ok image) :
    ∃ p : Program, (Capacity.assemble .unlimited a file source).2.program = some p ∧
      (Capacity.assemble .unlimited a file source).2.symbolReport = .ok p.symbolReport ∧
      ((∃ t, Capacity.listing .unlimited (Capacity.assemble .unlimited a file source).2 = .ok t) ↔
        p.CanList a.format) ∧
      ∀ (host : Host) (env : Environment) (files : FileStore) (args : List Text) (o : Options),
        host.memory = .unlimited → host.read .assembler files args = .ok (.work o) →
          o.Assembles env files a source →
            ∃ r, Tool.assembler.respond host env files args = .report r ∧
              (p.CanList a.format → r.exitCode = 0) ∧ (¬p.CanList a.format → r.exitCode = 3) := by
  obtain ⟨p, hp, hs⟩ := Capacity.assemble_fst_eq_ok_iff.mp h
  have hf := Assembler.format_of_programFor hp
  have hfault := (Capacity.programStore_eq_ok_iff.mp hs).1
  have hheld : (Capacity.assemble .unlimited a file source).2.program = some p := by
    rw [Capacity.assemble_snd_program, hp]
    rfl
  refine ⟨p, hheld, Assembler.symbolReport_eq hheld, ?_, ?_⟩
  · have hformat := Capacity.assemble_snd_format .unlimited a file source
    rw [Capacity.exists_listing_iff hheld (hf.trans hformat.symm) hfault, hformat]
  · intro host env files args o hm hargs ho
    obtain ⟨configuration, hc, ha⟩ := ho.settings
    have hfile : (Assembler.new a.dialect a.format a.checkSize).programFor (Path.normal o.input)
        source.unifyLineEnds = .ok p := by
      rw [Assembler.programFor_eq_ok_iff, codesOf_unifyLineEnds]
      exact Assembler.programFor_eq_ok_iff.mp hp
    let held : Assembler := { a with program := some p }
    have hexit := assembleReport_exitCode hc ha (FileStore.readText_of_encode ho.input) hfile
      (hm ▸ hs) ho.listing ho.symbols
    have hlist := Capacity.exists_listing_iff (a := held) rfl hf hfault
    rw [← hm] at hlist
    refine ⟨o.assembleReport host env files, by rw [Tool.respond, hargs], fun hcan => ?_,
      fun hcan => ?_⟩
    · obtain ⟨t, ht⟩ := hlist.mpr hcan
      exact hexit.1 t ht
    · cases hl : Capacity.listing host.memory held with
      | ok t => exact absurd (hlist.mp ⟨t, hl⟩) hcan
      | error failure => exact hexit.2 failure hl

/-- A listing that goes to a file, of a program in the historical notation. -/
theorem reports_of_accepted_smallValue :
    let host : Host := .standard .unlimited
    let a := Assembler.new .historical .standard true
    let source := "abs 0d-5\nStop".toList
    let files : FileStore := ⟨[], [], [(["p.asm".toList], Utf8.encode source)]⟩
    let args := ["--original-notation", "-l", "p.lst", "p.asm"].map (·.toList)
    (Capacity.assemble .unlimited a [] source).1 = .ok (.ofWords [-5, 57344]) ∧
      ∃ r, Tool.assembler.respond host [] files args = .report r ∧ r.exitCode = 0 := by
  intro host a source files args
  have h : (Capacity.assemble .unlimited a [] source).1 = .ok (.ofWords [-5, 57344]) := by
    decide +kernel
  let o : Options := ⟨"p.asm".toList, some "p.lst".toList, none, true, none, none, none, true,
    false, false⟩
  have hargs : host.read .assembler files args = .ok (.work o) := by rfl
  have ho : o.Assembles [] files a source := by
    refine ⟨⟨.standard, rfl, rfl⟩, by decide +kernel, ?_, ?_⟩
    · rintro _ ⟨⟩
      exact ⟨["p.lst".toList], by decide +kernel, by decide⟩
    · rintro _ ⟨⟩
  obtain ⟨p, hp, -, -, hr⟩ := reports_of_accepted h
  obtain ⟨r, hrespond, hexit, -⟩ := hr host [] files args o rfl hargs ho
  refine ⟨h, r, hrespond, hexit ?_⟩
  have hq : (Capacity.assemble .unlimited a [] source).2.program =
      some ⟨[⟨.absoluteValue, -5⟩, ⟨.stop, 0⟩], [], .standard⟩ := by decide +kernel
  obtain rfl := Option.some.inj (hq.symm.trans hp)
  exact Program.canList_iff.mpr ⟨by decide, by decide +kernel⟩

/-- The least power of sixteen that is too long to be written in decimal. -/
theorem longValue_notReported :
    let host : Host := .standard .unlimited
    let a := Assembler.new .modern .standard true
    let source : Text := "abs 0x1".toList ++ List.replicate 3572 '0'
    let files : FileStore := ⟨[], [], [(["p.asm".toList], Utf8.encode source)]⟩
    (Capacity.assemble .unlimited a [] source).1 = .ok (.ofWords [0]) ∧
      Capacity.listing .unlimited (Capacity.assemble .unlimited a [] source).2 =
        .error .unwritable ∧
      ∃ r, Tool.assembler.respond host [] files ["p.asm".toList] = .report r ∧
        r.exitCode = 3 := by
  intro host a source files
  -- the text is read once, and only its code: what is held follows for the file as well
  let p : Program := ⟨[⟨.absoluteValue, 16 ^ 3572⟩], [], .standard⟩
  have hcodes : a.programForCodes (codesOf source) = .ok p := by decide +kernel
  have hs : Capacity.programStore host.memory p = .ok (.ofWords [0]) := by decide +kernel
  have hp : ∀ file, a.programFor file source = .ok p := fun file =>
    Assembler.programFor_eq_ok_iff.mpr hcodes
  have hlisting : Capacity.listing .unlimited { a with program := some p } =
      .error .unwritable := by
    decide +kernel
  let o : Options := ⟨"p.asm".toList, none, none, false, none, none, none, true, false, false⟩
  have hargs : host.read .assembler files ["p.asm".toList] = .ok (.work o) := by rfl
  have hread : files.readText o.input = .ok source.unifyLineEnds :=
    FileStore.readText_of_encode rfl
  have hunified : a.programFor (Path.normal o.input) source.unifyLineEnds = .ok p := by
    rw [Assembler.programFor_eq_ok_iff, codesOf_unifyLineEnds]
    exact hcodes
  have hexit := assembleReport_exitCode (rfl : o.configure [] = .ok .standard)
    (rfl : o.assembler .standard = .ok a) hread hunified hs (by simp [o]) (by simp [o])
  refine ⟨?_, ?_, o.assembleReport host [] files, ?_, hexit.2 _ hlisting⟩
  · exact Capacity.assemble_fst_eq_ok_iff.mpr ⟨p, hp [], hs⟩
  · rw [Capacity.assemble_eq, hp []]
    exact hlisting
  · rw [Tool.respond, hargs]

end ManchesterBaby
